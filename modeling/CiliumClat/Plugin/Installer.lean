import CiliumClat.Library.EventMachine
import CiliumClat.Library.FileSystem
import CiliumClat.Plugin.Report

/-!
# Installing the plugin

`cilium-clat install` of `cmd/cilium-clat/main.go`: the init container of the DaemonSet copies its
own binary into the directory from which the container runtime executes plugins.

The copy is a protocol between processes that share that directory.  There may be more than one
installer, each of them may be killed, each of their calls may fail, and the node may lose power;
all the while the runtime starts what it finds under the name of the plugin.  So `install` is not a
function here but a process: what it is about to do (`Stage`), what one call does
(`Installer.call`), and what others notice of it (`Notice`).  Between the rename, the message that
reports it and the exit there is room for all that may happen elsewhere, so they are three calls.
`installers` puts any number of installers on one directory, one call after the other in any order.

`dst.Close()` on the way to an error, and the deferred `src.Close()`, change nothing that anyone
sees and their errors are ignored: they are left out.
-/

namespace CiliumClat.Plugin

open EventMachine FileSystem

/-- The flags `--dir` and `--name`, of a plugin in the directory itself. -/
structure Target where
  /-- The directory, as `filepath.Clean` leaves it. -/
  dir : String
  name : String
  plain : '/' ∉ name.toList ∧ name ≠ "" ∧ name ≠ "." ∧ name ≠ ".."

namespace Target

variable (t : Target)

/-- `filepath.Join(*dir, name)`. -/
def join (name : String) : String :=
  if t.dir = "" ∨ t.dir = "." then name
  else if t.dir = "/" then "/" ++ name
  else t.dir ++ "/" ++ name

/-- `tmp`, in the directory. -/
def tmp : String := "." ++ t.name ++ ".tmp"

/-- `final`, in the directory. -/
def final : String := t.name

/-- What an installer that got through prints, and how it ends. -/
def installed : Exit := ⟨0, "installed " ++ t.join t.final ++ "\n", ""⟩

/-- The error of `os.Rename` if there is no file under `tmp`. -/
def renameError : String :=
  "rename " ++ t.join t.tmp ++ " " ++ t.join t.final ++ ": no such file or directory"

end Target

/-- The same of an installer that did not. -/
def failed (err : String) : Exit := ⟨1, "", "error: " ++ err ++ "\n"⟩

/-- What `install` is about to do. -/
inductive Stage where
  | parse
  | executable
  | mkdirAll
  | openSelf
  | openTmp
  /-- `io.Copy`, with the bytes of the binary that `dst` does not have yet. -/
  | copy (dst : ℕ) (rest : List UInt8)
  | sync (dst : ℕ)
  | close
  | rename
  /-- `os.Remove(tmp)`, on the way to an error. -/
  | remove (err : String)
  /-- `fmt.Printf` or `fmt.Fprintln`, and then `return`. -/
  | print (out : Exit)
  /-- `os.Exit`. -/
  | exit (code : ℕ)
  | exited
  | killed
  deriving DecidableEq, Repr

/-- What a call comes back with. -/
inductive Reply where
  /-- The call works; a write takes at most `n + 1` bytes. -/
  | ok (n : ℕ)
  | fails (err : String)
  deriving DecidableEq, Repr

/-- What others notice of an installer. -/
inductive Notice where
  /-- The rename has worked. -/
  | renamed
  | printed (out : Exit)
  | exited (code : ℕ)
  deriving DecidableEq, Repr

/-- A process that runs `install`. -/
structure Installer where
  /-- What is in the file that `os.Executable` names. -/
  binary : List UInt8
  stage : Stage

/-- What a call leaves: the directory, what the installer is about to do then, and what there is to
notice. -/
structure Step where
  fs : FS String
  stage : Stage
  notice : Option Notice

/-- The next call of `install`. -/
def Installer.call (t : Target) (x : Installer) (fs : FS String) : Reply → Step
  | .ok n =>
    match x.stage with
    | .parse => ⟨fs, .executable, none⟩
    | .executable => ⟨fs, .mkdirAll, none⟩
    | .mkdirAll => ⟨fs, .openSelf, none⟩
    | .openSelf => ⟨fs, .openTmp, none⟩
    | .openTmp => ⟨(fs.openTrunc t.tmp).2, .copy (fs.openTrunc t.tmp).1 x.binary, none⟩
    | .copy dst [] => ⟨fs, .sync dst, none⟩
    | .copy dst (b :: rest) =>
      ⟨fs.append dst ((b :: rest).take (n + 1)), .copy dst ((b :: rest).drop (n + 1)), none⟩
    | .sync dst => ⟨fs.sync dst, .close, none⟩
    | .close => ⟨fs, .rename, none⟩
    | .rename =>
      match fs.rename t.tmp t.final with
      | some fs' => ⟨fs', .print t.installed, some .renamed⟩
      | none => ⟨fs, .remove t.renameError, none⟩
    | .remove err => ⟨fs.unlink t.tmp, .print (failed err), none⟩
    | .print out => ⟨fs, .exit out.code, some (.printed out)⟩
    | .exit code => ⟨fs, .exited, some (.exited code)⟩
    | .exited => ⟨fs, .exited, none⟩
    | .killed => ⟨fs, .killed, none⟩
  | .fails e =>
    match x.stage with
    -- `flag` prints what was wrong.
    | .parse => ⟨fs, .print ⟨2, "", e⟩, none⟩
    | .executable | .mkdirAll | .openSelf | .openTmp => ⟨fs, .print (failed e), none⟩
    | .copy _ _ | .sync _ | .close | .rename => ⟨fs, .remove e, none⟩
    -- The errors of `os.Remove` and of `fmt` are ignored.
    | .remove err => ⟨fs, .print (failed err), none⟩
    | .print out => ⟨fs, .exit out.code, none⟩
    | .exit code => ⟨fs, .exited, some (.exited code)⟩
    | .exited => ⟨fs, .exited, none⟩
    | .killed => ⟨fs, .killed, none⟩

/-- The process is gone, unless it has ended. -/
def Stage.kill : Stage → Stage
  | .exited => .exited
  | _ => .killed

/-- What a crash does to a process: it is gone if it has begun. -/
def Stage.crash : Stage → Stage
  | .parse => .parse
  | stage => stage.kill

/-- The directory of the plugins, and the installers at work on it. -/
structure BinDir (ι : Type) where
  fs : FS String
  procs : ι → Installer

/-- What happens to it. -/
inductive DirEvent (ι : Type) where
  | call (p : ι) (r : Reply)
  | kill (p : ι)
  /-- The node loses power. -/
  | crash (k : ℕ) (junk : ℕ → List UInt8)

variable {ι : Type} [DecidableEq ι]

/-- An installer goes on. -/
def BinDir.setStage (s : BinDir ι) (fs : FS String) (p : ι) (stage : Stage) : BinDir ι :=
  ⟨fs, Function.update s.procs p ⟨(s.procs p).binary, stage⟩⟩

/-- Installers on one directory.  The answers are what there is to notice of them. -/
def installers (t : Target) : Machine (BinDir ι) (DirEvent ι) (ι × Notice) where
  step s
    | .call p r =>
      let c := (s.procs p).call t s.fs r
      (s.setStage c.fs p c.stage, c.notice.map fun n => (p, n))
    | .kill p => (s.setStage s.fs p (s.procs p).stage.kill, none)
    | .crash k junk =>
      (⟨s.fs.crash k junk, fun p => ⟨(s.procs p).binary, (s.procs p).stage.crash⟩⟩, none)

end CiliumClat.Plugin
