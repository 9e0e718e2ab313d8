import Mathlib.Data.List.TakeWhile
import Valset.Files

/-!
# Names on a path

Which names a path below a directory consists of, and those of the directory in which it ends. Names
that stand for the directory that has been reached make no difference.
-/

namespace Valset
namespace Path

/-- A name that stands for one place of its own in a directory. -/
structure Plain (name : String) : Prop where
  leads : isHere name = false
  below : name ≠ ".."
  noSlash : '/' ∉ name.toList
  noNul : '\x00' ∉ name.toList

/-- Names without those that stand for the directory that has been reached. -/
def leading (list : List String) : List String :=
  list.filter fun name => !isHere name

/-- The names of a path that lead somewhere. -/
def way (path : String) : List String :=
  leading (names path)

@[simp] theorem leading_append (front back : List String) :
    leading (front ++ back) = leading front ++ leading back :=
  List.filter_append _ _

theorem leading_cons (name : String) (list : List String) :
    leading (name :: list) = leading [name] ++ leading list := by
  rw [← leading_append, List.singleton_append]

theorem leading_eq_nil {list : List String} (here : ∀ name ∈ list, isHere name) :
    leading list = [] := by
  rw [leading, List.filter_eq_nil_iff]
  intro name present
  simp [here name present]

/-- A plain name is not empty. -/
theorem Plain.ne_empty {name : String} (plain : Plain name) : name ≠ "" := by
  rintro rfl
  exact absurd plain.leads (by decide)

/-! ## Splitting -/

/-- What stands between slashes holds none of them, and nothing but characters of the path. -/
theorem mem_splitOn
    {chars piece : List Char}
    {c : Char}
    (present : piece ∈ chars.splitOn '/')
    (inPiece : c ∈ piece) :
    c ≠ '/' ∧ c ∈ chars := by
  induction chars generalizing piece with
  | nil =>
      rw [List.splitOn_nil, List.mem_singleton] at present
      rw [present] at inPiece
      cases inPiece
  | cons first chars inductionHypothesis =>
      rw [List.splitOn_cons_eq_if_modifyHead] at present
      split at present
      · rcases List.mem_cons.mp present with rfl | later
        · cases inPiece
        · exact (inductionHypothesis later inPiece).imp_right (List.mem_cons_of_mem _)
      · next notSlash =>
        cases shape : chars.splitOn '/' with
        | nil => exact absurd shape (List.splitOn_ne_nil _ _)
        | cons head rest =>
            rw [shape, List.modifyHead_cons] at present
            rcases List.mem_cons.mp present with rfl | later
            · rcases List.mem_cons.mp inPiece with rfl | inHead
              · exact ⟨by simpa using notSlash, List.mem_cons_self⟩
              · exact (inductionHypothesis (shape ▸ List.mem_cons_self) inHead).imp_right
                  (List.mem_cons_of_mem _)
            · exact (inductionHypothesis (shape ▸ List.mem_cons_of_mem _ later) inPiece).imp_right
                (List.mem_cons_of_mem _)

/-- A name has no slash and only characters of its path. -/
theorem mem_toList_of_mem_names
    {path name : String}
    {c : Char}
    (present : name ∈ names path)
    (inName : c ∈ name.toList) :
    c ≠ '/' ∧ c ∈ path.toList := by
  obtain ⟨piece, inPath, rfl⟩ := List.mem_map.mp present
  rw [String.toList_ofList] at inName
  exact mem_splitOn inPath inName

/-- Every path has a name. -/
theorem names_ne_nil (path : String) : names path ≠ [] := by
  simp [names]

/-- A slash separates the names in front of it from those behind it. -/
theorem names_append_slash_append (front back : String) :
    names (front ++ "/" ++ back) = names front ++ names back := by
  have slash : (front ++ "/" ++ back).toList = front.toList ++ '/' :: back.toList := by simp
  rw [names, slash, List.splitOn_append_cons_self, List.map_append]
  rfl

/-- A text without a slash is one name. -/
theorem names_of_not_mem {name : String} (noSlash : '/' ∉ name.toList) : names name = [name] := by
  rw [names, List.splitOn_eq_singleton noSlash, List.map_singleton, String.ofList_toList]

/-- Names with slashes between them are those of the path. -/
theorem names_intercalate
    {list : List String}
    (nonempty : list ≠ [])
    (noSlash : ∀ name ∈ list, '/' ∉ name.toList) :
    names ("/".intercalate list) = list := by
  induction list with
  | nil => exact absurd rfl nonempty
  | cons name list inductionHypothesis =>
      have first := names_of_not_mem (noSlash name List.mem_cons_self)
      cases list with
      | nil => rw [String.intercalate_singleton, first]
      | cons next list =>
          rw [String.intercalate_cons_cons, names_append_slash_append, first,
            inductionHypothesis (List.cons_ne_nil _ _) fun other present =>
              noSlash other (List.mem_cons_of_mem _ present)]
          rfl

/-- A suffix without slashes belongs to the last piece. -/
theorem splitOn_append
    (chars : List Char)
    {suffix : List Char}
    (noSlash : '/' ∉ suffix) :
    ∃ front last, chars.splitOn '/' = front ++ [last] ∧
      (chars ++ suffix).splitOn '/' = front ++ [last ++ suffix] := by
  induction chars with
  | nil => exact ⟨[], [], rfl, List.splitOn_eq_singleton noSlash⟩
  | cons c chars inductionHypothesis =>
      obtain ⟨front, last, split, splitLonger⟩ := inductionHypothesis
      rw [List.cons_append, List.splitOn_cons_eq_if_modifyHead,
        List.splitOn_cons_eq_if_modifyHead, split, splitLonger]
      split
      · exact ⟨[] :: front, last, rfl, rfl⟩
      · cases front with
        | nil => exact ⟨[], c :: last, rfl, rfl⟩
        | cons first front => exact ⟨(c :: first) :: front, last, rfl, rfl⟩

/-- What is put behind a path is put behind its last name. -/
theorem exists_names_append
    (path : String)
    {suffix : String}
    (noSlash : '/' ∉ suffix.toList) :
    ∃ front last, names path = front ++ [last] ∧
      names (path ++ suffix) = front ++ [last ++ suffix] := by
  obtain ⟨front, last, split, splitLonger⟩ := splitOn_append path.toList noSlash
  refine ⟨front.map String.ofList, String.ofList last, ?_, ?_⟩
  · rw [names, split, List.map_append, List.map_singleton]
  · rw [names, String.toList_append, splitLonger, List.map_append, List.map_singleton,
      String.ofList_append, String.ofList_toList]

/-- Names that are joined by slashes are found again on the way. -/
theorem way_intercalate
    {list : List String}
    (noSlash : ∀ name ∈ list, '/' ∉ name.toList) :
    way ("/".intercalate list) = leading list := by
  cases list with
  | nil => rfl
  | cons name list => rw [way, names_intercalate (List.cons_ne_nil _ _) noSlash]

theorem noNul_intercalate
    {list : List String}
    (noNul : ∀ name ∈ list, '\x00' ∉ name.toList) :
    '\x00' ∉ ("/".intercalate list).toList := by
  induction list with
  | nil => simp
  | cons name list inductionHypothesis =>
      have first := noNul name List.mem_cons_self
      cases list with
      | nil => rwa [String.intercalate_singleton]
      | cons next list =>
          have others := inductionHypothesis fun other present =>
            noNul other (List.mem_cons_of_mem _ present)
          rw [String.intercalate_cons_cons, String.toList_append, String.toList_append,
            List.mem_append, List.mem_append]
          rintro ((inFirst | inSlash) | inOthers)
          · exact first inFirst
          · simp at inSlash
          · exact others inOthers

/-- A path starts at the root when its first name is empty and there are others. -/
theorem isAbsolute_iff {path : String} :
    isAbsolute path ↔ ∃ rest, rest ≠ [] ∧ names path = "" :: rest := by
  rw [isAbsolute, names, beq_iff_eq]
  cases path.toList with
  | nil => simp
  | cons c chars =>
      rw [List.splitOn_cons_eq_if_modifyHead]
      by_cases slash : c = '/'
      · simp [slash]
      · cases shape : chars.splitOn '/' with
        | nil => exact absurd shape (List.splitOn_ne_nil _ _)
        | cons head rest => simp [slash]

/-! ## Joining -/

/-- What stands in front of the names in a directory. -/
def opening (directory : String) : String :=
  if directory == "" then ""
  else if directory.toList.getLast? == some '/' then directory
  else directory ++ "/"

/-- A path below a directory begins with the directory. -/
theorem join_eq
    {name : String}
    (relative : isAbsolute name = false)
    (directory : String) :
    join directory name = opening directory ++ name := by
  rw [join, opening, relative, Bool.false_or]
  split
  · exact (String.empty_append).symm
  · split <;> rfl

/-- A directory is opened by a single slash, unless it is the one that has been reached. -/
theorem opening_cases (directory : String) :
    (directory = "" ∧ opening directory = "") ∨
      ∃ front, opening directory = front ++ "/" ∧
        (directory = front ++ "/" ∨ (directory = front ∧ directory ≠ "")) := by
  rw [opening]
  split
  · next empty => exact .inl ⟨by simpa using empty, rfl⟩
  · next nonempty =>
    split
    · next slash =>
      obtain ⟨front, shape⟩ := List.getLast?_eq_some_iff.mp (beq_iff_eq.mp slash)
      have closed : directory = String.ofList front ++ "/" := by
        rw [← String.toList_inj, shape]
        simp
      exact .inr ⟨String.ofList front, closed, .inl closed⟩
    · exact .inr ⟨directory, rfl, .inr ⟨rfl, by simpa using nonempty⟩⟩

namespace Plain

variable
  {name : String}

/-- A text that begins with a plain name does not start at the root. -/
theorem isAbsolute_append (plain : Plain name) (suffix : String) :
    isAbsolute (name ++ suffix) = false := by
  rw [isAbsolute, beq_eq_false_iff_ne, String.toList_append]
  cases shape : name.toList with
  | nil => exact absurd (String.toList_eq_nil_iff.mp shape) plain.ne_empty
  | cons c chars =>
      rintro slash
      obtain rfl := Option.some.inj slash
      exact plain.noSlash (shape ▸ List.mem_cons_self)

theorem isAbsolute_eq (plain : Plain name) : isAbsolute name = false := by
  rw [← String.append_empty (s := name)]
  exact plain.isAbsolute_append ""

/-- What is put behind a path is put behind its last name. -/
theorem join_append (plain : Plain name) (directory suffix : String) :
    join directory name ++ suffix = join directory (name ++ suffix) := by
  rw [join_eq plain.isAbsolute_eq, join_eq (plain.isAbsolute_append suffix), String.append_assoc]

/-- A path below a directory leads through the directory to its last name. -/
theorem exists_names_join (plain : Plain name) (directory : String) :
    ∃ front, names (join directory name) = front ++ [name] ∧ leading front = way directory := by
  have last : names name = [name] := names_of_not_mem plain.noSlash
  rw [join_eq plain.isAbsolute_eq]
  rcases opening_cases directory with ⟨rfl, opened⟩ | ⟨front, opened, shape⟩
  · exact ⟨[], by rw [opened, String.empty_append, last]; rfl, rfl⟩
  · refine ⟨names front, by rw [opened, names_append_slash_append, last], ?_⟩
    rcases shape with rfl | ⟨rfl, _⟩
    · have closed := names_append_slash_append front ""
      rw [String.append_empty] at closed
      rw [way, closed, leading_append]
      exact (List.append_nil _).symm
    · rfl

/-- A path is absolute if the directory in it is. -/
theorem isAbsolute_join (plain : Plain name) (directory : String) :
    isAbsolute (join directory name) = isAbsolute directory := by
  rw [join_eq plain.isAbsolute_eq]
  rcases opening_cases directory with ⟨rfl, opened⟩ | ⟨front, opened, rfl | ⟨rfl, nonempty⟩⟩
  · rw [opened, String.empty_append, plain.isAbsolute_eq]
    rfl
  · rw [opened, isAbsolute, isAbsolute]
    cases shape : front.toList <;> simp [shape]
  · rw [opened, isAbsolute, isAbsolute]
    cases shape : directory.toList with
    | nil => exact absurd (String.toList_eq_nil_iff.mp shape) nonempty
    | cons c chars => simp [shape]

/-- The path to a plain name is not empty. -/
theorem join_ne_empty (plain : Plain name) (directory : String) : join directory name ≠ "" := by
  rw [join_eq plain.isAbsolute_eq]
  intro empty
  exact plain.ne_empty (String.append_eq_empty_iff.mp empty).2

/-- No path below a directory holds a character that no name may hold, if that of the directory does
not. -/
theorem noNul_join
    (plain : Plain name)
    {directory : String}
    (clean : '\x00' ∉ directory.toList) :
    '\x00' ∉ (join directory name).toList := by
  rw [join_eq plain.isAbsolute_eq, String.toList_append, List.mem_append, not_or]
  refine ⟨?_, plain.noNul⟩
  rw [opening]
  split
  · simp
  · split
    · exact clean
    · rw [String.toList_append, List.mem_append]
      rintro (inDirectory | inSlash)
      · exact clean inDirectory
      · simp at inSlash

end Plain

/-! ## The directory of a path -/

/-- Only names at the end that lead nowhere are dropped. -/
theorem exists_dropHere (list : List String) :
    ∃ back, list = dropHere list ++ back ∧ ∀ name ∈ back, isHere name := by
  refine ⟨(list.reverse.takeWhile isHere).reverse, ?_, ?_⟩
  · rw [dropHere, ← List.reverse_append, List.takeWhile_append_dropWhile, List.reverse_reverse]
  · intro name present
    exact List.mem_takeWhile_imp (List.mem_reverse.mp present)

/-- Names that stay in place lead nowhere. -/
theorem leading_dropHere (list : List String) : leading (dropHere list) = leading list := by
  obtain ⟨back, split, here⟩ := exists_dropHere list
  have dropped := congrArg leading split
  rw [leading_append, leading_eq_nil here, List.append_nil] at dropped
  exact dropped.symm

theorem mem_of_mem_dropHere
    {list : List String}
    {name : String}
    (present : name ∈ dropHere list) :
    name ∈ list := by
  obtain ⟨back, split, _⟩ := exists_dropHere list
  rw [split]
  exact List.mem_append_left _ present

theorem dropHere_concat
    {name : String}
    (leads : isHere name = false)
    (list : List String) :
    dropHere (list ++ [name]) = list ++ [name] := by
  simp [dropHere, leads]

/-- Another path that begins where a path does, and that leads through given names. -/
structure Follows (front : List String) (path parent : String) : Prop where
  start : isAbsolute parent = isAbsolute path
  way : way parent = leading front
  noNul : '\x00' ∉ path.toList → '\x00' ∉ parent.toList

theorem isAbsolute_eq_false_of_names
    {path first : String}
    {rest : List String}
    (shape : names path = first :: rest)
    (notEmpty : first ≠ "") :
    isAbsolute path = false := by
  rw [← Bool.not_eq_true, isAbsolute_iff]
  rintro ⟨others, _, shape'⟩
  rw [shape] at shape'
  exact notEmpty (List.cons.inj shape').1

/-- A leading dot and the slash behind it lead nowhere. -/
theorem way_dot
    {list : List String}
    (noSlash : ∀ name ∈ list, '/' ∉ name.toList) :
    way ("." ++ "/".intercalate ("" :: list)) = leading list := by
  cases list with
  | nil => rfl
  | cons name list =>
      have slash : "." ++ "/".intercalate ("" :: name :: list) =
          "." ++ "/" ++ "/".intercalate (name :: list) := by
        rw [String.intercalate_cons_cons, String.empty_append, String.append_assoc]
      rw [slash, way, names_append_slash_append, leading_append]
      exact way_intercalate noSlash

section Parent

variable
  {path name : String}
  {more : List String}

/-- A path from the root. -/
theorem follows_root
    (absolute : isAbsolute path)
    (noSlash : ∀ other ∈ more, '/' ∉ other.toList)
    (noNul : '\x00' ∉ path.toList → ∀ other ∈ more, '\x00' ∉ other.toList) :
    Follows ("" :: more) path ("/" ++ "/".intercalate (dropHere more)) where
  start := by
    rw [absolute]
    simp [isAbsolute]
  way := by
    have opened := names_append_slash_append "" ("/".intercalate (dropHere more))
    rw [String.empty_append] at opened
    rw [Path.way, opened, leading_append]
    change way ("/".intercalate (dropHere more)) = leading more
    rw [way_intercalate fun other present => noSlash other (mem_of_mem_dropHere present),
      leading_dropHere]
  noNul clean := by
    rw [String.toList_append, List.mem_append]
    rintro (inSlash | inNames)
    · simp at inSlash
    · exact noNul_intercalate
        (fun other present => noNul clean other (mem_of_mem_dropHere present)) inNames

/-- A path that begins with a dot. -/
theorem follows_dot
    (relative : isAbsolute path = false)
    (noSlash : ∀ other ∈ more, '/' ∉ other.toList)
    (noNul : '\x00' ∉ path.toList → ∀ other ∈ more, '\x00' ∉ other.toList) :
    Follows ("." :: more) path ("." ++ "/".intercalate (dropHere ("" :: more))) where
  start := by
    rw [relative]
    simp [isAbsolute]
  way := by
    have dropped : leading (dropHere ("" :: more)) = leading ("." :: more) :=
      leading_dropHere ("" :: more)
    obtain ⟨back, split, _⟩ := exists_dropHere ("" :: more)
    cases kept : dropHere ("" :: more) with
    | nil =>
        rw [kept] at dropped
        rw [← dropped]
        rfl
    | cons first rest =>
        rw [kept] at dropped split
        obtain ⟨rfl, rfl⟩ := List.cons.inj split
        rw [← dropped]
        exact way_dot fun other present => noSlash other (List.mem_append_left _ present)
  noNul clean := by
    rw [String.toList_append, List.mem_append]
    rintro (inDot | inNames)
    · simp at inDot
    · refine noNul_intercalate (fun other present => ?_) inNames
      rcases List.mem_cons.mp (mem_of_mem_dropHere present) with rfl | inMore
      · simp
      · exact noNul clean other inMore

/-- A path that begins with a name that leads somewhere. -/
theorem follows_name
    {first : String}
    (leads : isHere first = false)
    (relative : isAbsolute path = false)
    (noSlash : ∀ other ∈ first :: more, '/' ∉ other.toList)
    (noNul : '\x00' ∉ path.toList → ∀ other ∈ first :: more, '\x00' ∉ other.toList) :
    Follows (first :: more) path ("/".intercalate (dropHere (first :: more))) := by
  have slashless : ∀ other ∈ dropHere (first :: more), '/' ∉ other.toList :=
    fun other present => noSlash other (mem_of_mem_dropHere present)
  refine ⟨?_, ?_, fun clean => ?_⟩
  · obtain ⟨back, split, here⟩ := exists_dropHere (first :: more)
    cases kept : dropHere (first :: more) with
    | nil =>
        rw [kept, List.nil_append] at split
        have dropped := here first (split ▸ List.mem_cons_self)
        rw [leads] at dropped
        cases dropped
    | cons again rest =>
        rw [kept] at split slashless
        obtain ⟨rfl, _⟩ := List.cons.inj split
        have notEmpty : first ≠ "" := by
          rintro rfl
          cases leads
        rw [relative, isAbsolute_eq_false_of_names
          (names_intercalate (List.cons_ne_nil _ _) slashless) notEmpty]
  · rw [way_intercalate slashless, leading_dropHere]
  · exact noNul_intercalate fun other present => noNul clean other (mem_of_mem_dropHere present)

/-- A path that ends with a name of its own has a directory, which may be the one where the path
starts. -/
theorem exists_parent?
    {front : List String}
    (leads : isHere name = false)
    (shape : names path = front ++ [name]) :
    ∃ parent, parent? path = some parent ∧ (parent = "" ∨ Follows front path parent) := by
  have noSlash : ∀ other ∈ front, '/' ∉ other.toList := by
    intro other present slash
    have inPath : other ∈ names path := by simp [shape, present]
    exact (mem_toList_of_mem_names inPath slash).1 rfl
  have noNul : '\x00' ∉ path.toList → ∀ other ∈ front, '\x00' ∉ other.toList := by
    intro clean other present nul
    have inPath : other ∈ names path := by simp [shape, present]
    exact clean (mem_toList_of_mem_names inPath nul).2
  cases front with
  | nil =>
      refine ⟨"", ?_, .inl rfl⟩
      simp only [isHere, Bool.or_eq_false_iff, beq_eq_false_iff_ne] at leads
      simp [parent?, shape, leads, dropHere, isHere, through]
  | cons first more =>
      have moreNoSlash : ∀ other ∈ more, '/' ∉ other.toList :=
        fun other present => noSlash other (List.mem_cons_of_mem _ present)
      have moreNoNul : '\x00' ∉ path.toList → ∀ other ∈ more, '\x00' ∉ other.toList :=
        fun clean other present => noNul clean other (List.mem_cons_of_mem _ present)
      by_cases root : first = ""
      · subst root
        have absolute : isAbsolute path := isAbsolute_iff.mpr ⟨more ++ [name], by simp, shape⟩
        refine ⟨_, ?_, .inr (follows_root absolute moreNoSlash moreNoNul)⟩
        simp [parent?, shape, absolute, dropHere_concat leads, through]
      have relative := isAbsolute_eq_false_of_names shape root
      by_cases dot : first = "."
      · subst dot
        refine ⟨_, ?_, .inr (follows_dot relative moreNoSlash moreNoNul)⟩
        have kept := dropHere_concat leads ("" :: more)
        rw [List.cons_append] at kept
        simp [parent?, shape, kept, through]
      · refine ⟨_, ?_, .inr (follows_name (by simp [isHere, root, dot]) relative noSlash noNul)⟩
        have kept := dropHere_concat leads (first :: more)
        rw [List.cons_append] at kept
        simp [parent?, shape, root, dot, kept, through]

end Parent

/-- The last name that leads somewhere is followed by names that lead nowhere. -/
theorem exists_of_reverse_dropHere
    {list above : List String}
    {name : String}
    (kept : (dropHere list).reverse = name :: above) :
    isHere name = false ∧
      ∃ back, list = above.reverse ++ name :: back ∧ ∀ other ∈ back, isHere other := by
  obtain ⟨back, split, here⟩ := exists_dropHere list
  have front : dropHere list = above.reverse ++ [name] := by
    rw [← List.reverse_reverse (dropHere list), kept, List.reverse_cons]
  refine ⟨?_, back, ?_, here⟩
  · have first := List.head?_dropWhile_not isHere list.reverse
    rw [dropHere, List.reverse_reverse] at kept
    rw [kept] at first
    simpa using first
  · rw [front, List.append_assoc, List.singleton_append] at split
    exact split

/-- The directory of names behind a start: they are taken up to the last one that leads on. -/
def directoryOf (start : String) (list : List String) : Option String :=
  match (dropHere list).reverse with
  | [] => if start == "." then some "" else none
  | _ :: above => some (through start (dropHere above.reverse))

/-- The directory of a path is what is in front of its last name that leads anywhere. -/
theorem exists_of_directoryOf
    {start parent : String}
    {list : List String}
    (found : directoryOf start list = some parent) :
    parent = "" ∨ ∃ front name back, list = front ++ name :: back ∧ isHere name = false ∧
      (∀ other ∈ back, isHere other) ∧ parent = through start (dropHere front) := by
  rw [directoryOf] at found
  split at found
  · split at found
    · exact .inl (Option.some.inj found).symm
    · cases found
  · next name above kept =>
    obtain ⟨leads, back, split, here⟩ := exists_of_reverse_dropHere kept
    exact .inr ⟨above.reverse, name, back, split, leads, here, (Option.some.inj found).symm⟩

/-- The directory that the text of a path gives leads through the names in front of the last one
that leads somewhere, unless it is the one where the path starts. -/
theorem exists_of_parent?
    {path parent : String}
    (found : parent? path = some parent) :
    parent = "" ∨ ∃ front name back, names path = front ++ name :: back ∧ isHere name = false ∧
      (∀ other ∈ back, isHere other) ∧ Follows front path parent := by
  have noSlash : ∀ other ∈ names path, '/' ∉ other.toList :=
    fun other present slash => (mem_toList_of_mem_names present slash).1 rfl
  have noNul : '\x00' ∉ path.toList → ∀ other ∈ names path, '\x00' ∉ other.toList :=
    fun clean other present nul => clean (mem_toList_of_mem_names present nul).2
  cases shape : names path with
  | nil => exact absurd shape (names_ne_nil path)
  | cons first rest =>
      rw [shape] at noSlash noNul
      by_cases root : first = ""
      · subst root
        by_cases absolute : isAbsolute path
        · have opened : parent? path = directoryOf "/" rest := by
            simp only [parent?, shape, absolute, if_true]
            rfl
          refine (exists_of_directoryOf (opened ▸ found)).imp_right ?_
          rintro ⟨front, name, back, rfl, leads, here, rfl⟩
          refine ⟨"" :: front, name, back, rfl, leads, here,
            follows_root absolute (fun other present => ?_) fun clean other present => ?_⟩
          · exact noSlash other (List.mem_cons_of_mem _ (List.mem_append_left _ present))
          · exact noNul clean other (List.mem_cons_of_mem _ (List.mem_append_left _ present))
        · simp [parent?, shape, absolute, dropHere] at found
      have relative := isAbsolute_eq_false_of_names shape root
      by_cases dot : first = "."
      · subst dot
        have opened : parent? path = directoryOf "." (if rest.isEmpty then [] else "" :: rest) := by
          simp only [parent?, shape]
          rfl
        refine (exists_of_directoryOf (opened ▸ found)).imp_right ?_
        rintro ⟨front, name, back, split, leads, here, rfl⟩
        cases front with
        | nil =>
            split at split
            · cases split
            · obtain ⟨rfl, -⟩ := List.cons.inj split
              cases leads
        | cons opening more =>
            split at split
            · cases split
            · obtain ⟨rfl, rfl⟩ := List.cons.inj split
              refine ⟨"." :: more, name, back, rfl, leads, here,
                follows_dot relative (fun other present => ?_) fun clean other present => ?_⟩
              · exact noSlash other (List.mem_cons_of_mem _ (List.mem_append_left _ present))
              · exact noNul clean other (List.mem_cons_of_mem _ (List.mem_append_left _ present))
      · have opened : parent? path = directoryOf "" (first :: rest) := by
          simp [parent?, shape, root, dot]
          rfl
        refine (exists_of_directoryOf (opened ▸ found)).elim .inl ?_
        rintro ⟨front, name, back, split, leads, here, rfl⟩
        cases front with
        | nil => exact .inl rfl
        | cons opening more =>
            obtain ⟨rfl, rfl⟩ := List.cons.inj split
            rw [through, String.empty_append]
            refine .inr ⟨first :: more, name, back, rfl, leads, here,
              follows_name (by simp [isHere, root, dot]) relative (fun other present => ?_)
                fun clean other present => ?_⟩
            · exact noSlash other (List.mem_append_left _ present)
            · exact noNul clean other (List.mem_append_left _ present)

end Path
end Valset
