import JobRoster.Files.Sources
import JobRoster.Package.Basic
import JobRoster.Package.Manifest

/-!
# Loading packages

Reads a package from its manifest.
-/

namespace JobRoster

open Files

namespace Package

/-- Reads and checks a manifest, which has to be that of a package. -/
def readManifest (sources : Sources) (path : FilePath) :
    Except Failure (PackageSection × Manifest) := do
  let text ← (sources.read path).mapError (.io path)
  match Manifest.parse? text with
  | none => throw (.manifest path (.malformed "not a manifest"))
  | some manifest =>
    match manifest.package with
    | none => throw (.manifest path .noPackage)
    | some package => return (package, manifest)

/-- The root file of a package: the one the manifest gives, else the usual one of a library, else
    that of a program. -/
def rootFile? (sources : Sources) (dir : FilePath) (library : LibrarySection) : Option FilePath :=
  match library.root with
  | some path => some (dir.join path)
  | none =>
    let source := dir.join "src"
    [source.join "lib.rs", source.join "main.rs"].find? sources.isFile

/-- Loads the package of a manifest. -/
def load (sources : Sources) (path : FilePath) : Except Failure Package := do
  let (package, manifest) ← readManifest sources path
  match rootFile? sources path.parent manifest.library with
  | none => throw (.crate (.moduleNotFound "crate root" path))
  | some root =>
    let name := Crate.pathName (manifest.library.name.getD package.name)
    let dependencies := manifest.dependencies.map Crate.pathName
    let crate ← (Crate.load sources name dependencies root).mapError .crate
    return ⟨crate, some path, package.layer⟩

end Package

end JobRoster
