import Mathlib
import MoodengSQL.Core.Types

/-!
# Paths of table files

A table is saved in the file that its name and `.dat`, joined to the data
directory, lead to. The name is any text a quoted identifier can hold: with a
`/` in it the path may leave the directory, and two names may lead to one file.
`load_all` lists the entries of the data directory itself and takes their stems
for table names.

Paths are texts, relative to the data directory. The directories on the way
exist, no entry is a link, and a way out of the data directory does not lead
back into it.
-/

namespace MoodengSQL

/-- One component of a path: `.` stays in the directory, and `..` leaves it. The
way so far is listed backwards. -/
def walkPath (absolute : Bool) (way : List (List Char)) (part : List Char) : List (List Char) :=
  if part = [] ∨ part = ['.'] then way
  else if part = ['.', '.'] then
    match way with
    | last :: before => if last = ['.', '.'] then part :: way else before
    | [] => if absolute then [] else [part]
  else part :: way

/-- The path that `data_dir.join(path)` leads to. -/
def resolvePath (path : String) : String :=
  let absolute := path.toList.head? = some '/'
  let way := (path.toList.splitOn '/').foldl (walkPath absolute) []
  .ofList ((if absolute then ['/'] else []) ++ ['/'].intercalate way.reverse)

/-- `table_path`. -/
def tablePath (table : String) : String := resolvePath (table ++ ".dat")

/-- `Path::file_stem` and `Path::extension` of a file name: what stands before and
behind its last dot, unless there is nothing before it. -/
def splitExtension (name : String) : String × Option String :=
  match name.toList.reverse.dropWhile (· ≠ '.') with
  | _ :: before@(_ :: _) =>
      (.ofList before.reverse, some (.ofList (name.toList.reverse.takeWhile (· ≠ '.')).reverse))
  | _ => (name, none)

/-- The path is that of an entry of the data directory. -/
def isEntry (path : String) : Bool := '/' ∉ path.toList

/-- The table `load_all` takes a file for, if it is an entry of the data directory
with the extension `dat`. -/
def tableOfPath (path : String) : Option String :=
  if isEntry path then
    match splitExtension path with
    | (stem, some extension) => if extension = "dat" then some stem else none
    | (_, none) => none
  else none

/-- The name can be that of a file. -/
def isFileName (name : String) : Bool :=
  name ≠ "" ∧ '/' ∉ name.toList ∧ '\x00' ∉ name.toList

section Names

variable {table other path : String}

theorem isFileName_iff :
    isFileName table = true ↔ table ≠ "" ∧ '/' ∉ table.toList ∧ '\x00' ∉ table.toList :=
  decide_eq_true_iff

/-- An entry's path leads to it. -/
theorem resolvePath_of_isEntry (entry : isEntry path = true) (named : path.toList ≠ [])
    (here : path.toList ≠ ['.']) (up : path.toList ≠ ['.', '.']) : resolvePath path = path := by
  have single : path.toList.splitOn '/' = [path.toList] :=
    List.splitOn_eq_singleton (of_decide_eq_true entry)
  have relative : path.toList.head? ≠ some '/' := fun first =>
    of_decide_eq_true entry (List.mem_of_mem_head? first)
  simp [resolvePath, single, relative, walkPath, named, here, up]

theorem toList_datFile (table : String) :
    (table ++ ".dat").toList = table.toList ++ ['.', 'd', 'a', 't'] := String.toList_append

@[simp]
theorem isEntry_datFile : isEntry (table ++ ".dat") = isEntry table := by
  unfold isEntry
  rw [toList_datFile]
  simp

theorem tablePath_of_isEntry (entry : isEntry table = true) :
    tablePath table = table ++ ".dat" := by
  have last : (table ++ ".dat").toList.getLast? = some 't' := by
    rw [toList_datFile, List.getLast?_append]
    rfl
  refine resolvePath_of_isEntry (isEntry_datFile.trans entry) ?_ ?_ ?_
  all_goals
    intro same
    rw [same] at last
    cases last

theorem splitExtension_datFile (named : table ≠ "") :
    splitExtension (table ++ ".dat") = (table, some "dat") := by
  have reversed : (table ++ ".dat").toList.reverse =
      't' :: 'a' :: 'd' :: '.' :: table.toList.reverse := by
    rw [toList_datFile, List.reverse_append]
    rfl
  have nonempty : table.toList.reverse ≠ [] := by
    simpa using named
  obtain ⟨last, before, listed⟩ := List.exists_cons_of_ne_nil nonempty
  have whole : String.ofList (last :: before).reverse = table := by
    rw [← listed, List.reverse_reverse, String.ofList_toList]
  unfold splitExtension
  rw [reversed, listed]
  simpa [List.dropWhile, List.takeWhile] using whole

/-- What stands before the last dot, the dot and what stands behind it are the name. -/
theorem splitExtension_eq {extension : String}
    (split : splitExtension path = (table, some extension)) :
    table ≠ "" ∧ path.toList = table.toList ++ '.' :: extension.toList := by
  have parts := List.takeWhile_append_dropWhile (p := (· ≠ '.')) (l := path.toList.reverse)
  unfold splitExtension at split
  split at split
  · rename_i dot last before found
    obtain ⟨rfl, same⟩ := Prod.mk.inj split
    obtain rfl := Option.some.inj same
    have isDot : dot = '.' := by
      have first := List.head?_dropWhile_not (p := (· ≠ '.')) path.toList.reverse
      rw [found] at first
      simpa using first
    refine ⟨by simp, ?_⟩
    rw [found, isDot] at parts
    have whole := congrArg List.reverse parts
    rw [List.reverse_reverse] at whole
    generalize path.toList.reverse.takeWhile (· ≠ '.') = behind at whole ⊢
    rw [← whole]
    simp
  · cases (Prod.mk.inj split).2

/-- **The files `load_all` takes for tables** are those that the names of entries
lead to. -/
theorem tableOfPath_eq_some : tableOfPath path = some table ↔
    isEntry table = true ∧ table ≠ "" ∧ path = table ++ ".dat" := by
  constructor
  · intro found
    unfold tableOfPath at found
    split at found
    · rename_i entry
      cases parts : splitExtension path with
      | mk stem extension =>
          cases extension with
          | none =>
              rw [parts] at found
              cases found
          | some extension =>
              rw [parts] at found
              dsimp only at found
              split at found
              · rename_i dat
                cases found
                obtain ⟨named, chars⟩ := splitExtension_eq parts
                have same : path = table ++ ".dat" := by
                  rw [← String.toList_inj, toList_datFile, chars, dat]
                  rfl
                rw [same, isEntry_datFile] at entry
                exact ⟨entry, named, same⟩
              · cases found
    · cases found
  · rintro ⟨entry, named, rfl⟩
    rw [tableOfPath, if_pos (isEntry_datFile.trans entry), splitExtension_datFile named]
    rfl

theorem isEntry_of_isFileName (plain : isFileName table = true) : isEntry table = true :=
  decide_eq_true (isFileName_iff.mp plain).2.1

/-- Names of files lead to different files. -/
theorem tablePath_inj (plain : isFileName table = true) (plain' : isFileName other = true) :
    tablePath table = tablePath other ↔ table = other := by
  rw [tablePath_of_isEntry (isEntry_of_isFileName plain),
    tablePath_of_isEntry (isEntry_of_isFileName plain'), String.append_left_inj]

end Names

/-- A name that leaves the data directory, and two names of one file. -/
example : tablePath "../t" = "../t.dat" ∧ tableOfPath (tablePath "../t") = none ∧
    tablePath "./t" = tablePath "t" ∧ tableOfPath (tablePath "") = none := by
  decide +kernel

end MoodengSQL
