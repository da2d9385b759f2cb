import Kmsrdp.Source.Server.Credentials

/-!
# Windows-style paths of a redirected drive

Model of `kmsrdp/src/rdpdr_path.rs`. A path is the list of its characters.
-/
namespace Kmsrdp.Source.Rdpdr
open Source.Server.Authorization (isWhitespace)

abbrev WinPath := List Char

def rootPath : WinPath := ['\\']

def isSafeWinComponent (name : List Char) : Bool :=
  name ≠ [] ∧ name ≠ ['.'] ∧ name ≠ ['.', '.'] ∧
    ¬ name.any fun c => c = '\\' ∨ c = '/' ∨ c = '\x00' ∨ c = ':'

def sanitizeDosName (raw : List Char) : List Char :=
  let outer := fun c => c == '\x00' || isWhitespace c
  let trimmed := ((raw.dropWhile outer).reverse.dropWhile outer).reverse
  trimmed.map fun c => if c.isAlphanum || c == '-' || c == '_' then c else '_'

def joinWin (parent : WinPath) (name : List Char) : Option WinPath :=
  if isSafeWinComponent name then
    some (if parent = rootPath then '\\' :: name else parent ++ '\\' :: name)
  else none

def beforeLastSeparator : List Char → Option (List Char)
  | [] => none
  | c :: rest =>
    match beforeLastSeparator rest with
    | some front => some (c :: front)
    | none => if c = '\\' then some [] else none

def parentOf (path : WinPath) : WinPath :=
  if path = rootPath then rootPath
  else
    match beforeLastSeparator path with
    | some [] => rootPath
    | some parent => parent
    | none => rootPath

theorem length_joinWin {parent path : WinPath} {name : List Char}
    (h : joinWin parent name = some path) : 2 ≤ path.length := by
  obtain ⟨hsafe, h⟩ := Option.ite_none_right_eq_some.mp h
  have hname : 0 < name.length := by
    refine List.length_pos_iff.mpr fun hnil => ?_
    simp [isSafeWinComponent, hnil] at hsafe
  split at h
  · cases h
    rw [List.length_cons]
    omega
  · cases h
    rw [List.length_append, List.length_cons]
    omega

end Kmsrdp.Source.Rdpdr
