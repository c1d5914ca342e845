import ApiProjection.Proofs.Command.Steps
import ApiProjection.Proofs.Settings.Layers
/-!
# A bare session

A session in which there are no files and nothing is said of settings, so that the defaults hold.

* `Settings.resolve_bare`: the settings in it are the defaults and what the arguments say.
-/
namespace ApiProjection

open Act

/-- A session without files, with a folder for settings at the root. -/
def bare (stdin : String := "") : Session :=
  { disk := { folders := [["specshift"]] }, env := [("XDG_CONFIG_HOME", "/")], stdin := stdin }

theorem Disk.read_absent {d : Disk} {path : String} {p : Place} (hp : d.locate path = .ok p)
    (h : d.entryAt? p = none) : d.isFile path = .ok false := by
  rw [isFile, find, hp]
  simp only [h]
  rfl

namespace Settings

variable {stdin : String}

theorem locate_bare_folder : (bare stdin).disk.locate "/specshift" = .ok ["specshift"] := by
  have hparts : allParts "/specshift" = ["specshift"] := by rfl
  have hroot : "/specshift".startsWith "/" = true := by simp
  have hsize : "/specshift".utf8ByteSize = 10 := rfl
  have hpart : "specshift".utf8ByteSize = 9 := rfl
  simp [Disk.locate, hparts, hroot, hsize, hpart, Disk.walk, Disk.step, Disk.longestName, Disk.longestPart]

theorem locate_bare_user : (bare stdin).disk.locate "/specshift/config.json" = .ok ["specshift", "config.json"] := by
  have hparts : allParts "/specshift/config.json" = ["specshift", "config.json"] := by rfl
  have hroot : "/specshift/config.json".startsWith "/" = true := by simp
  have hsize : "/specshift/config.json".utf8ByteSize = 22 := rfl
  have hpart : "specshift".utf8ByteSize = 9 := rfl
  have hname : "config.json".utf8ByteSize = 11 := rfl
  simp [Disk.locate, hparts, hroot, hsize, hpart, hname, Disk.walk, Disk.step, Disk.longestName, Disk.longestPart,
    Disk.isFolderAt, bare]

theorem isFile_bare_user : (bare stdin).disk.isFile "/specshift/config.json" = .ok false :=
  Disk.read_absent locate_bare_user rfl

theorem isFile_bare_project : (bare stdin).disk.isFile "/specshift.json" = .ok false := by
  have hparts : allParts "/specshift.json" = ["specshift.json"] := by rfl
  have hroot : "/specshift.json".startsWith "/" = true := by simp
  have hsize : "/specshift.json".utf8ByteSize = 15 := rfl
  have hname : "specshift.json".utf8ByteSize = 14 := rfl
  have hlocate : (bare stdin).disk.locate "/specshift.json" = .ok ["specshift.json"] := by
    simp [Disk.locate, hparts, hroot, hsize, hname, Disk.walk, Disk.step, Disk.longestName, Disk.longestPart]
  exact Disk.read_absent hlocate rfl

theorem folderName_bare : folderName (bare stdin) = ⟨"/", ["specshift"]⟩ := by rfl

theorem makeFolders_bare : (bare stdin).disk.makeFolders (folderName (bare stdin)) = .ok (bare stdin).disk := by
  have htext : PathName.text ⟨"/", ["specshift"]⟩ = "/specshift" := by rfl
  have hthere : (bare stdin).disk.entryAt? ["specshift"] = some .folder := rfl
  simp [folderName_bare, Disk.makeFolders, Disk.ensureFolders, Disk.ensureFolder, Disk.makeFolder, Disk.isFolder,
    Disk.find, htext, locate_bare_folder, hthere]

theorem load_bare : load.perform (bare stdin) = (.ok {}, (bare stdin)) := by
  have hfile : file.perform (bare stdin) = (.ok ((folderName (bare stdin)).child "config.json"), (bare stdin)) := by
    rw [file, perform_bind_ok (perform_folder_ok (bare stdin) makeFolders_bare)]
    rfl
  have htext : ((folderName (bare stdin)).child "config.json").text = "/specshift/config.json" := by rfl
  rw [load, perform_bind_ok hfile]
  dsimp only
  rw [htext, perform_bind_ok (perform_look_ok (f := fun d => d.isFile "/specshift/config.json") _ isFile_bare_user)]
  rfl

theorem loadProject_bare : loadProject.perform (bare stdin) = (.ok none, (bare stdin)) := by
  have hhere : here.perform (bare stdin) = (.ok ⟨"/", []⟩, (bare stdin)) := rfl
  have htext : (PathName.child ⟨"/", []⟩ "specshift.json").text = "/specshift.json" := by rfl
  rw [loadProject, perform_bind_ok hhere]
  dsimp only
  rw [htext, perform_bind_ok (perform_look_ok (f := fun d => d.isFile "/specshift.json") _ isFile_bare_project)]
  rfl

/-- In a bare session the settings are the defaults and what the arguments say. -/
theorem resolve_bare {o : Overrides} {s : Settings} (h : (withOverrides {} o).withVersion = .ok s) :
    (resolve o).perform (bare stdin) = (.ok s, (bare stdin)) := by
  have hunder : underArguments.perform (bare stdin) = (.ok {}, (bare stdin)) := by
    rw [underArguments, perform_bind_ok load_bare, perform_bind_ok loadProject_bare]
    rfl
  rw [resolve_eq, perform_bind_ok hunder, h]
  rfl

end Settings

/-! ## Descriptions that are not there -/

theorem Source.load_absent {source : String} {w : Session} (hstdin : source ≠ "-")
    (haddress : (source.startsWith "http://" || source.startsWith "https://") = false)
    (hfile : w.disk.isFile (PathName.ofText source).text = .ok false) :
    (load source).perform w = (.error (.failed ⟨.input, s!"IR file not found: {source}", [], none⟩), w) := by
  have hread : (read source).perform w = (.error (.failed ⟨.input, s!"IR file not found: {source}", [], none⟩), w) := by
    rw [read, if_neg hstdin, haddress, if_neg Bool.false_ne_true, readFile]
    dsimp only
    rw [perform_bind_ok (perform_look_ok (f := fun d => d.isFile (PathName.ofText source).text) w hfile)]
    rfl
  rw [load, perform_bind_error hread]

end ApiProjection
