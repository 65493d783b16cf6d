/-
  CronSupervisor.Shell.Files — the files that commands can count on.

  Only the directories and files that every system has exist here, and the programs that the model
  knows.  Nothing is ever written to a file.
-/
import CronSupervisor.Text.Split

namespace CronSupervisor.Shell

open Text

/-! ## §1. Paths -/

/-- The parts of an absolute path, without those that lead nowhere or back. -/
def pathParts (path : List Char) : List (List Char) :=
  (splitOn '/' path).foldl (fun done part =>
    if part = [] ∨ part = ['.'] then done
    else if part = ['.', '.'] then done.dropLast
    else done ++ [part]) []

/-- The absolute path of parts. -/
def pathOf (parts : List (List Char)) : String :=
  if parts.isEmpty then "/" else String.ofList (parts.flatMap ('/' :: ·))

/-- The absolute path of a path that is seen from a directory. -/
def resolve (directory path : String) : String :=
  if path.toList.head? = some '/' then pathOf (pathParts path.toList)
  else pathOf (pathParts (directory.toList ++ '/' :: path.toList))

/-! ## §2. What there is -/

/-- The programs that are known, each in both directories of programs. -/
def programs : List String :=
  ["sh", "dash", "echo", "cat", "sleep", "head", "tr", "pwd", "true", "false", "printf", "test",
   "["]

/-- The directories of programs. -/
def programDirectories : List String := ["/bin", "/usr/bin"]

/-- The directories. -/
def directories : List String :=
  ["/", "/bin", "/usr", "/usr/bin", "/usr/local", "/usr/local/bin", "/usr/local/sbin", "/usr/sbin",
   "/sbin", "/usr/lib", "/lib", "/etc", "/dev", "/tmp", "/var", "/var/lib", "/var/log", "/var/tmp",
   "/root", "/home", "/opt", "/proc", "/run", "/sys", "/mnt", "/media", "/srv", "/boot"]

/-- The files that are no programs. -/
def plainFiles : List String :=
  ["/dev/null", "/dev/zero", "/etc/passwd", "/etc/group", "/etc/hosts", "/etc/hostname"]

/-- What a path leads to. -/
inductive FileKind where
  | directory
  | plain
  | program (name : String)
  deriving DecidableEq

/-- What an absolute path leads to, if it leads to anything. -/
def fileKind? (path : String) : Option FileKind :=
  if directories.contains path then some .directory
  else if plainFiles.contains path then some .plain
  else
    (programs.find? fun p => programDirectories.any fun d => path == d ++ "/" ++ p).map .program

/-- Why nothing can be done with a path, in the words of the system. -/
inductive PathProblem where
  | missing
  | notDirectory
  | denied
  deriving DecidableEq

/-- The wording of a problem. -/
def PathProblem.message : PathProblem → String
  | missing => "No such file or directory (os error 2)"
  | notDirectory => "Not a directory (os error 20)"
  | denied => "Permission denied (os error 13)"

/-- Why a path leads nowhere: on its way there is a file, or nothing. -/
def missingProblem (path : String) : PathProblem :=
  let parts := pathParts path.toList
  let ways := (List.range parts.length).map fun n => pathOf (parts.take n)
  if ways.any fun w => (fileKind? w).any (· != .directory) then .notDirectory else .missing

/-- Make sure that a path leads to a directory. -/
def findDirectory (path : String) : Except PathProblem String :=
  match fileKind? path with
  | some .directory => .ok path
  | some _ => .error .notDirectory
  | none => .error (missingProblem path)

/-- The program at a path. -/
def programAt (path : String) : Except PathProblem String :=
  match fileKind? path with
  | some (.program name) => .ok name
  | some _ => .error .denied
  | none => .error (missingProblem path)

/-- The program of a name: a path if there is a slash in it, otherwise the first that one of the
listed directories has. -/
def findProgram (directory searchPath name : String) : Except PathProblem String :=
  if name.toList.contains '/' then programAt (resolve directory name)
  else
    let found := (splitOn ':' searchPath.toList).findSome? fun d =>
      (programAt (resolve directory (String.ofList (d ++ '/' :: name.toList)))).toOption
    match found with
    | some program => if name.isEmpty then .error .missing else .ok program
    | none => .error .missing

/-- The directories that are searched for programs where nothing else is said. -/
def defaultSearchPath : String :=
  "/usr/local/sbin:/usr/local/bin:/usr/sbin:/usr/bin:/sbin:/bin"

end CronSupervisor.Shell
