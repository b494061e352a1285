import Codel00p.Lib.Except
import Codel00p.Lib.Program
import Codel00p.Lib.Text

/-! Updates of the running executable from a release archive. -/

namespace Codel00p.Update

abbrev Bytes := List UInt8

/-- What the network, the file system and the libraries answer during an update. -/
structure Host where
  windows : Bool
  client : Except String Unit
  downloadBytes : String → Except String Bytes
  fromUtf8 : Bytes → Except String String
  toLowercase : String → String
  sha256Hex : Bytes → String
  createDir : Except String Unit
  writeArchive : Except String Unit
  /-- Whether `tar` could be run, and was successful. -/
  tar : Except String Bool
  /-- The file named `codel00p` in an archive. -/
  binary : Bytes → Option Bytes
  /-- A file of that name that was in the directory before. -/
  stale : Option Bytes
  currentExe : Except String String
  parent : String → Option String
  /-- Why a copy fails, and what is there of it then. -/
  copy : Except (String × Option Bytes) Unit
  rename : Except String Unit

variable (host : Host)

def downloadText (url : String) : Except String String := host.downloadBytes url >>= host.fromUtf8

/-- The digest a checksum file names. -/
def expected (checksumFile : String) : String :=
  host.toLowercase ((splitPieces isWhitespace checksumFile).head?.getD "")

def verifySha256 (bytes : Bytes) (checksumFile : String) : Except String Unit :=
  if (expected host checksumFile).isEmpty then .ok ()
  else if host.sha256Hex bytes ≠ expected host checksumFile then
    .error ("checksum mismatch: expected " ++ expected host checksumFile ++ ", got " ++ host.sha256Hex bytes)
  else .ok ()

def assetUrl (tag target : String) : String :=
  "https://github.com/in-th3-l00p/codel00p/releases/download/" ++ tag ++ "/codel00p-" ++ target ++ ".tar.gz"

/-- Download and unpack a release, up to the binary that is to replace the running one. -/
def unpack (tag target : String) : Except String Bytes := do
  if host.windows then throw "automatic update isn't supported on Windows yet — re-run install.ps1"
  host.client.mapError ("failed to build http client: " ++ ·)
  let archive ← host.downloadBytes (assetUrl tag target)
  (downloadText host (assetUrl tag target ++ ".sha256")).toOption.elim (.ok ()) (verifySha256 host archive)
  host.createDir
  host.writeArchive
  let success ← host.tar.mapError ("failed to run tar: " ++ ·)
  if success = false then throw "failed to extract the downloaded archive"
  (host.binary archive <|> host.stale).elim (.error "downloaded archive did not contain a codel00p binary") .ok

/-- The executable, and the file that is put beside it first. -/
structure Install where
  executable : Bytes
  staged : Option Bytes := none

def replaceRunningBinary (newBinary : Bytes) : Program String Install Unit := do
  let current ← Program.ofExcept host.currentExe
  let dir ← Program.ofExcept ((host.parent current).elim (.error "cannot locate the install directory") .ok)
  match host.copy with
  | .error (error, partly) =>
    Program.change fun install => { install with staged := partly }
    throw ("cannot write to " ++ dir ++ " (" ++ error ++ "); you may need to re-run the installer")
  | .ok () =>
    Program.change fun install => { install with staged := some newBinary }
    match host.rename with
    | .error error =>
      Program.change fun install => { install with staged := none }
      throw ("failed to replace " ++ current ++ ": " ++ error)
    | .ok () => Program.change fun _ => { executable := newBinary }

def applyUpdate (tag target : String) : Program String Install Unit := do
  let newBinary ← Program.ofExcept (unpack host tag target)
  replaceRunningBinary host newBinary

variable {host} {tag target : String} {newBinary : Bytes}

theorem unpack_eq_ok (unpacked : unpack host tag target = .ok newBinary) :
    ∃ archive, host.downloadBytes (assetUrl tag target) = .ok archive ∧
      (host.binary archive <|> host.stale) = some newBinary ∧
      ∀ checksum, downloadText host (assetUrl tag target ++ ".sha256") = .ok checksum → expected host checksum ≠ "" →
        host.sha256Hex archive = expected host checksum := by
  obtain ⟨-, unpacked⟩ := Except.check_eq_ok.1 unpacked
  obtain ⟨_, -, unpacked⟩ := Except.bind_eq_ok.1 unpacked
  obtain ⟨archive, downloaded, unpacked⟩ := Except.bind_eq_ok.1 unpacked
  obtain ⟨_, verified, unpacked⟩ := Except.bind_eq_ok.1 unpacked
  obtain ⟨_, -, unpacked⟩ := Except.bind_eq_ok.1 unpacked
  obtain ⟨_, -, unpacked⟩ := Except.bind_eq_ok.1 unpacked
  obtain ⟨_, -, unpacked⟩ := Except.bind_eq_ok.1 unpacked
  obtain ⟨-, unpacked⟩ := Except.check_eq_ok.1 unpacked
  refine ⟨archive, downloaded, ?_, ?_⟩
  · cases found : (host.binary archive <|> host.stale) with
    | none => simp [found] at unpacked
    | some other => simpa [found] using unpacked
  · intro checksum fetched named
    rw [fetched] at verified
    by_contra differs
    simp [Except.toOption, verifySha256, named, differs] at verified

variable (host tag target)

/-- The executable changes only as the last step, and then all of it. -/
theorem replaceRunningBinary_spec (newBinary : Bytes) (before : Bytes) :
    Program.Triple (fun install => install.executable = before) (replaceRunningBinary host newBinary)
      (fun _ install => install.executable = newBinary) fun _ install => install.executable = before := by
  refine ⟨fun install held => ?_⟩
  rw [replaceRunningBinary, Program.exec_bind, Program.exec_ofExcept]
  cases host.currentExe with
  | error _ => exact held
  | ok current =>
    simp only [Program.exec_bind, Program.exec_ofExcept]
    cases host.parent current with
    | none => exact held
    | some dir =>
      rcases host.copy with ⟨_, _⟩ | _
      · exact held
      · rcases host.rename with _ | _
        · exact held
        · rfl

/-- A host on which every operation works, with what it is asked for. -/
def smooth (downloadBytes : String → Except String Bytes) : Host where
  windows := false
  client := .ok ()
  downloadBytes := downloadBytes
  fromUtf8 bytes := .ok (String.ofList (bytes.map fun byte => Char.ofNat byte.toNat))
  toLowercase := toAsciiLowercase
  sha256Hex bytes := toString (bytes.foldl (fun sum byte => sum + byte.toNat) 0)
  createDir := .ok ()
  writeArchive := .ok ()
  tar := .ok true
  binary := some
  stale := none
  currentExe := .ok "/bin/codel00p"
  parent _ := some "/bin"
  copy := .ok ()
  rename := .ok ()

end Codel00p.Update
