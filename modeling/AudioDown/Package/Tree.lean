/-
# AudioDown.Package.Tree — directories, and the hash of the files in them

A directory is a tree of named entries.  Names are what the file system allows: not every name is UTF-8, and
no name holds a slash.  `find` is what `symlink_metadata` sees at a path: directories on the way are
followed through symbolic links, the last component is not.

Both Core and the Supervisor hash a plugin's directory by collecting its regular files, sorting them by their
relative paths and framing each path and each content with its length (`sourceBytes`).
-/
import AudioDown.Lib.Framing
import AudioDown.Lib.Method
import Mathlib.Data.Char
import Mathlib.Data.List.Lex
import Mathlib.Data.List.Sort

namespace AudioDown.Package

open Lib (frames utf8 utf8_injective)

abbrev Bytes := List UInt8

/-- The name of a directory entry. -/
inductive Name where
  | text (value : String) (noSlash : '/' ∉ value.toList)
  /-- a name that is not UTF-8 -/
  | raw (bytes : Bytes)
deriving DecidableEq

def Name.chars : Name → Option (List Char)
  | .text value _ => some value.toList
  | .raw _ => none

inductive Tree where
  | file (content : Bytes)
  | dir (entries : List (Name × Tree))
  /-- a symbolic link and what it leads to (`other` if to nothing) -/
  | link (target : Tree)
  | other

namespace Tree

/-! ## Looking things up -/

def follow : Tree → Tree
  | .link target => target.follow
  | t => t

def Named (name : String) : Name → Bool
  | .text value _ => value = name
  | .raw _ => false

def lookup (name : String) (t : Tree) : Option Tree :=
  match t.follow with
  | .dir entries => (entries.find? fun entry => Named name entry.1).map Prod.snd
  | _ => none

/-- What `symlink_metadata` finds at a path below a directory. -/
def find : List String → Tree → Option Tree
  | [], t => some t
  | name :: names, t => (t.lookup name).bind (find names)

/-- `fs::read`: the last component is followed too. -/
def read (path : List String) (t : Tree) : Option Bytes :=
  match (t.find path).map follow with
  | some (.file content) => some content
  | _ => none

/-- `Path::is_file` -/
def isFile (path : List String) (t : Tree) : Bool := (t.read path).isSome

mutual

/-- There are directories and regular files only (`secure_tree`). -/
def regular : Tree → Bool
  | .file _ => true
  | .dir entries => regularEntries entries
  | .link _ | .other => false

def regularEntries : List (Name × Tree) → Bool
  | [] => true
  | (_, t) :: entries => regular t && regularEntries entries

end

/-! ## Collecting files -/

/-- The relative path of a file, if it is UTF-8: the names with slashes between them. -/
def relativePath (names : List Name) : Option String :=
  (names.mapM Name.chars).map fun parts => String.ofList (['/'].intercalate parts)

/-- The errors of the two `collect_files`. -/
structure CollectErrors (ε : Type) where
  notUtf8 : ε
  link : ε
  other : ε

mutual

/-- What `collect_files` does at an entry; `above` is the path from the root. -/
def collect {ε : Type} (e : CollectErrors ε) (above : List Name) : Tree → Except ε (List (String × Bytes))
  | .file content =>
      match relativePath above with
      | none => .error e.notUtf8
      | some path => .ok [(path, content)]
  | .dir entries => collectEntries e above entries
  | .link _ => .error e.link
  | .other => .error e.other

def collectEntries {ε : Type} (e : CollectErrors ε) (above : List Name) :
    List (Name × Tree) → Except ε (List (String × Bytes))
  | [] => .ok []
  | (name, t) :: entries =>
      collect e (above ++ [name]) t >>= fun files =>
        (collectEntries e above entries).map fun rest => files ++ rest

end

end Tree

/-! ## The bytes that are hashed -/

/-- `left.0.cmp(&right.0)`: strings are compared byte by byte, which is by code points. -/
def PathLe (left right : String × Bytes) : Prop := left.1.toList ≤ right.1.toList

instance : DecidableRel PathLe := fun left right =>
  inferInstanceAs (Decidable (left.1.toList ≤ right.1.toList))

/-- The files in order, each path and each content with its length in front as a big-endian `u64`. -/
def sourceBytes (files : List (String × Bytes)) : Bytes :=
  frames 8 ((files.insertionSort PathLe).flatMap fun file => [utf8 file.1, file.2])

instance : Std.Total PathLe := ⟨fun _ _ => le_total _ _⟩

instance : IsTrans _ PathLe := ⟨fun _ _ _ => le_trans⟩

/-- The files of a directory: no path is there twice, and the lengths fit in a `u64`. -/
structure FileSet (files : List (String × Bytes)) : Prop where
  distinct : (files.map Prod.fst).Nodup
  fits : ∀ file ∈ files, (utf8 file.1).length < 256 ^ 8 ∧ file.2.length < 256 ^ 8

variable {files files' : List (String × Bytes)}

theorem eq_of_pairs_eq (h : (files.flatMap fun file => [utf8 file.1, file.2]) =
      files'.flatMap fun file => [utf8 file.1, file.2]) : files = files' := by
  induction files generalizing files' with
  | nil => cases files' <;> simp_all
  | cons file files ih =>
    cases files' with
    | nil => cases h
    | cons file' files' =>
      simp only [List.flatMap_cons, List.cons_append, List.nil_append, List.cons.injEq] at h
      rw [ih h.2.2, Prod.ext (utf8_injective h.1) h.2.1]

theorem FileSet.short (h : FileSet files) :
    ∀ bytes ∈ (files.insertionSort PathLe).flatMap fun file => [utf8 file.1, file.2],
      bytes.length < 256 ^ 8 := by
  intro bytes hbytes
  obtain ⟨file, hfile, hbytes⟩ := List.mem_flatMap.mp hbytes
  have fits := h.fits file ((List.perm_insertionSort PathLe files).mem_iff.mp hfile)
  rcases List.mem_pair.mp hbytes with rfl | rfl
  · exact fits.1
  · exact fits.2

theorem FileSet.sorted_eq (h : FileSet files) (perm : files.Perm files') :
    files.insertionSort PathLe = files'.insertionSort PathLe := by
  have sorts := List.perm_insertionSort PathLe
  refine List.Perm.eq_of_pairwise (fun a b ha hb hab hba => ?_) (List.pairwise_insertionSort ..)
    (List.pairwise_insertionSort ..) (((sorts files).trans perm).trans (sorts files').symm)
  -- `PathLe` does not look at the contents, but no other file has this path
  exact List.inj_on_of_nodup_map h.distinct ((sorts files).mem_iff.mp ha)
    (perm.mem_iff.mpr ((sorts files').mem_iff.mp hb)) (String.toList_inj.mp (le_antisymm hab hba))

/-- The bytes that are hashed tell any two sets of files apart, and not the order in which they were found. -/
theorem sourceBytes_eq_iff (h : FileSet files) (h' : FileSet files') :
    sourceBytes files = sourceBytes files' ↔ files.Perm files' := by
  have sorts := List.perm_insertionSort PathLe
  constructor
  · intro same
    have sorted := eq_of_pairs_eq (Lib.frames_injective (by decide) h.short h'.short same)
    exact (sorts files).symm.trans (sorted ▸ sorts files')
  · intro perm
    rw [sourceBytes, h.sorted_eq perm, sourceBytes]

theorem order_is_not_hashed : sourceBytes [("a", [1]), ("b", [])] = sourceBytes [("b", []), ("a", [1])] :=
  (sourceBytes_eq_iff ⟨by decide, by decide⟩ ⟨by decide, by decide⟩).mpr (.swap _ _ _)

end AudioDown.Package
