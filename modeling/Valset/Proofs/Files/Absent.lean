import Mathlib.Data.List.Basic
import Mathlib.Data.List.Induction
import Valset.Proofs.Files.Undivided

/-!
# Files that are not there

What becomes of a path at which there is no file while writing it fails. In a tree without loose
ends there is nothing below a place where nothing stands, so that the directories which are made on
the way bring nothing to light. A path that leads up again, or that has a name which no directory
can hold, may come to something else when they are there.
-/

namespace Valset
namespace FileTree

/-- What stands anywhere but at the root stands in a directory. -/
def Rooted (tree : FileTree) : Prop :=
  ∀ place name, tree.entry? (place ++ [name]) ≠ none → tree.entry? place = some .directory

section Rooted

variable
  {tree before after later : FileTree}
  {path : String}
  {location place : Location}

/-- The empty tree is rooted. -/
theorem rooted_empty : empty.Rooted := by
  intro place name stands
  obtain ⟨entry, found⟩ := Option.ne_none_iff_exists'.mp stands
  obtain ⟨front, back, split, -⟩ := List.lookup_eq_some_iff.mp found
  have present : (place ++ [name], entry) ∈ empty.entries := by simp [split]
  have each : ∀ pair ∈ empty.entries,
      pair.1 = [] ∨ empty.entry? pair.1.dropLast = some .directory := by
    decide
  rcases each _ present with root | above
  · simp at root
  · simpa using above

/-- There is nothing below a place where nothing stands. -/
theorem Rooted.nothing_below
    (rooted : tree.Rooted)
    (nothing : tree.entry? location = none)
    (names : Location) :
    tree.entry? (location ++ names) = none := by
  induction names using List.reverseRecOn with
  | nil => rwa [List.append_nil]
  | append_singleton names name inductionHypothesis =>
      by_contra stands
      rw [← List.append_assoc] at stands
      rw [rooted _ _ stands] at inductionHypothesis
      cases inductionHypothesis

/-- A tree stays rooted when its directories stay and only places in directories are filled. -/
theorem Rooted.of_filled
    (rooted : tree.Rooted)
    (directories : ∀ location, tree.entry? location = some .directory →
      later.entry? location = some .directory)
    (filled : ∀ place name, later.entry? (place ++ [name]) ≠ none →
      tree.entry? (place ++ [name]) ≠ none ∨ tree.entry? place = some .directory) :
    later.Rooted := by
  intro place name stands
  refine directories place ?_
  rcases filled place name stands with before | directory
  · exact rooted place name before
  · exact directory

/-- A name leads from a directory to a place in a directory, if not to the root. -/
theorem Rooted.of_onward
    (rooted : tree.Rooted)
    (here : tree.entry? location = some .directory)
    {last name : String}
    (onwards : onward location last = .ok (place ++ [name])) :
    tree.entry? place = some .directory := by
  have inDirectory {place : Location} {name : String}
      (directory : tree.entry? (place ++ [name]) = some .directory) :
      tree.entry? place = some .directory :=
    rooted place name (by simp [directory])
  rw [onward] at onwards
  split at onwards
  · obtain rfl := Except.ok.inj onwards
    exact inDirectory here
  · split at onwards
    · have up : location.dropLast = place ++ [name] := Except.ok.inj onwards
      have nonempty : location ≠ [] := by
        rintro rfl
        simp at up
      rw [← List.dropLast_append_getLast nonempty, up] at here
      exact inDirectory (inDirectory here)
    · split at onwards
      · cases onwards
      · obtain ⟨rfl, -⟩ := List.append_inj' (Except.ok.inj onwards) rfl
        exact here

/-- What a path leads to stands in a directory. -/
theorem Rooted.of_locate
    (rooted : tree.Rooted)
    (located : tree.locate path = .ok location)
    (place : Location)
    (name : String)
    (shape : location = place ++ [name]) :
    tree.entry? place = some .directory := by
  subst shape
  obtain ⟨front, last, shape, -⟩ := exists_names_eq_concat path
  obtain ⟨-, -, reached, leads, onwards⟩ := (locate_eq_ok_iff shape).mp located
  exact rooted.of_onward leads.directory onwards

/-- A tree stays rooted when something is put at a place in a directory, but not in place of one. -/
theorem Rooted.of_update
    (rooted : tree.Rooted)
    (inDirectory : ∀ place name, location = place ++ [name] →
      tree.entry? place = some .directory)
    (notDirectory : tree.entry? location ≠ some .directory)
    {entry : FileEntry}
    (entries : later.entry? = Function.update tree.entry? location (some entry)) :
    later.Rooted := by
  refine rooted.of_filled (fun other directory => ?_) fun place name stands => ?_
  · rw [entries, Function.update_of_ne, directory]
    rintro rfl
    exact notDirectory directory
  · by_cases here : place ++ [name] = location
    · exact .inr (inDirectory place name here.symm)
    · rw [entries, Function.update_of_ne here] at stands
      exact .inl stands

/-- Writing a file keeps a tree rooted. -/
theorem Rooted.of_write
    (rooted : tree.Rooted)
    {content : Bytes}
    (written : tree.write path content = .ok later) :
    later.Rooted := by
  rw [write] at written
  obtain ⟨location, located, written⟩ := bind_eq_ok_iff.mp written
  cases entry : tree.entry? location with
  | none =>
      rw [entry] at written
      obtain rfl := Except.ok.inj written
      exact rooted.of_update (rooted.of_locate located) (by simp [entry])
        (entry?_setEntry tree location _)
  | some found =>
      rw [entry] at written
      cases found with
      | file number =>
          obtain rfl := Except.ok.inj written
          exact rooted
      | directory => cases written
      | device isFull =>
          dsimp only at written
          split at written
          · cases written
          · obtain rfl := Except.ok.inj written
            exact rooted

/-- Moving a file keeps a tree rooted. -/
theorem Rooted.of_move
    (rooted : tree.Rooted)
    {source target : String}
    (moved : tree.move source target = .ok later) :
    later.Rooted := by
  rw [move] at moved
  obtain ⟨old, -, moved⟩ := bind_eq_ok_iff.mp moved
  obtain ⟨new, located, moved⟩ := bind_eq_ok_iff.mp moved
  split at moved
  · cases moved
  · cases moved
  · cases moved
  · next entry notSource standing notTarget =>
    obtain rfl := Except.ok.inj moved
    have entries : entry? ((tree.dropEntry old).setEntry new entry) =
        Function.update (Function.update tree.entry? old none) new (some entry) := by
      rw [entry?_setEntry, entry?_dropEntry]
    refine rooted.of_filled (fun other directory => ?_) fun place name stands => ?_
    · rw [entries, Function.update_of_ne, Function.update_of_ne, directory]
      · rintro rfl
        exact notSource (Option.some.inj (standing.symm.trans directory))
      · rintro rfl
        exact notTarget directory
    · by_cases here : place ++ [name] = new
      · exact .inr (rooted.of_locate located place name here.symm)
      · rw [entries, Function.update_of_ne here, Function.update_apply] at stands
        split at stands
        · cases stands rfl
        · exact .inl stands

/-- Making directories along a way keeps a tree rooted. -/
theorem Rooted.makeAlong
    (rooted : tree.Rooted)
    (location : Location)
    (names : List String) :
    (tree.makeAlong location names).2.Rooted := by
  induction names generalizing tree location with
  | nil => exact rooted
  | cons name names inductionHypothesis =>
      rw [FileTree.makeAlong]
      cases stepped : tree.step location name with
      | error fault => exact rooted
      | ok next =>
          dsimp only
          have here := entry?_of_step_eq_ok stepped
          rw [step_eq_onward here] at stepped
          cases entry : tree.entry? next with
          | none =>
              refine inductionHypothesis (rooted.of_update ?_ (by simp [entry])
                (entry?_setEntry tree next .directory)) next
              rintro place last rfl
              exact rooted.of_onward here stepped
          | some found =>
              cases found with
              | directory => exact inductionHypothesis rooted next
              | file number => exact rooted
              | device isFull => exact rooted

/-- Making the directories of a path keeps a tree rooted. -/
theorem Rooted.of_makeDirectories
    (rooted : tree.Rooted)
    (path : String) :
    (tree.makeDirectories path).2.Rooted := by
  rw [makeDirectories]
  split
  · exact rooted
  · split
    · exact rooted
    · exact rooted.makeAlong _ _

/-- Whatever a tree answers, and whatever fails, it stays rooted. -/
theorem Rooted.of_moves
    {question : FileQuestion}
    {reply : question.Reply}
    (rooted : before.Rooted)
    (moved : moves question reply before after) :
    after.Rooted := by
  cases question with
  | read path => exact moved.1 ▸ rooted
  | isThere path => exact moved.1 ▸ rooted
  | write path content =>
      cases reply with
      | ok done => exact rooted.of_write moved
      | error fault =>
          rcases moved with rfl | ⟨left, -, written⟩
          · exact rooted
          · exact rooted.of_write written
  | move source target =>
      cases reply with
      | ok done => exact rooted.of_move moved
      | error fault =>
          obtain rfl : after = before := moved
          exact rooted
  | makeDirectories path =>
      cases reply with
      | ok done =>
          have made : before.makeDirectories path = (.ok (), after) := moved
          have kept := rooted.of_makeDirectories path
          rwa [made] at kept
      | error fault =>
          obtain ⟨front, -, rfl⟩ := moved
          exact rooted.makeAlong _ _

end Rooted

/-! ## Ways that lead down -/

/-- Names that lead down, each of which a directory can hold. -/
def Descending (names : List String) : Prop :=
  ∀ name ∈ names, name ≠ ".." ∧ name.utf8ByteSize ≤ longestName

instance (names : List String) : Decidable (Descending names) :=
  inferInstanceAs (Decidable (∀ name ∈ names, _))

/-- At the place that names lead down to there is nothing, nor anything but directories on the
way. -/
structure Absent
    (tree : FileTree)
    (location : Location)
    (names : List String) : Prop where
  onWay : ∀ front, front <+: names →
    tree.entry? (location ++ front) = none ∨ tree.entry? (location ++ front) = some .directory
  nothing : tree.entry? (location ++ names) = none

section Descending

variable
  {tree : FileTree}
  {location place : Location}
  {names : List String}
  {path : String}

/-- A name that leads down leads into its own directory. -/
theorem onward_of_descending
    {name : String}
    (descending : Descending (name :: names))
    (location : Location) :
    onward location name = .ok (location ++ Path.leading [name]) := by
  obtain ⟨notUp, short⟩ := descending name List.mem_cons_self
  rw [onward]
  split
  · next here => simp [Path.leading, here]
  · next leads =>
    rw [if_neg (by simpa using notUp), if_neg (Nat.not_lt.mpr short)]
    simp [Path.leading, leads]

/-- A way that leads down leads to the place of its names. -/
theorem Leads.eq_append
    (descending : Descending names)
    (leads : tree.Leads location names place) :
    place = location ++ Path.leading names := by
  induction names generalizing location with
  | nil =>
      obtain rfl : location = place := Except.ok.inj leads.reached
      exact (List.append_nil _).symm
  | cons name names inductionHypothesis =>
      obtain ⟨-, next, onwards, rest⟩ := leads_cons_iff.mp leads
      rw [onward_of_descending descending] at onwards
      obtain rfl := Except.ok.inj onwards
      have below := inductionHypothesis (fun other present =>
        descending other (List.mem_cons_of_mem _ present)) rest
      rw [below, List.append_assoc, ← Path.leading_cons]

/-- No name leads on from what is no directory. -/
theorem step_of_not_directory
    {entry : FileEntry}
    (standing : tree.entry? location = some entry)
    (notDirectory : entry ≠ .directory)
    (name : String) :
    tree.step location name = .error .notDirectory := by
  rw [step, needDirectory, standing]
  cases entry with
  | directory => exact absurd rfl notDirectory
  | file number => rfl
  | device isFull => rfl

/-- A place that is absent is so from each directory on the way. -/
theorem Absent.next
    {name : String}
    (absent : tree.Absent location (Path.leading (name :: names))) :
    tree.Absent (location ++ Path.leading [name]) (Path.leading names) := by
  rw [Path.leading_cons name names] at absent
  constructor
  · intro front shorter
    rw [List.append_assoc]
    exact absent.onWay _ ((List.prefix_append_right_inj _).mpr shorter)
  · rw [List.append_assoc]
    exact absent.nothing

/-- A place that is absent from one behind a directory is absent from the directory. -/
theorem Absent.of_next
    {name : String}
    (directory : tree.entry? location = some .directory)
    (below : tree.Absent (location ++ Path.leading [name]) (Path.leading names)) :
    tree.Absent location (Path.leading (name :: names)) := by
  rw [Path.leading_cons name names]
  constructor
  · rintro front ⟨others, joined⟩
    rcases List.append_eq_append_iff.mp joined with ⟨between, first, -⟩ | ⟨rest, rfl, last⟩
    · cases between with
      | nil =>
          rw [List.append_nil] at first
          have next := below.onWay [] List.nil_prefix
          rwa [List.append_nil, first] at next
      | cons other between =>
          -- One name leads no further than one place, so that nothing is left for the front.
          have single : (Path.leading [name]).length ≤ 1 := List.length_filter_le _ _
          rw [first, List.length_append, List.length_cons] at single
          obtain rfl := List.eq_nil_of_length_eq_zero (show front.length = 0 by omega)
          exact .inr (by rwa [List.append_nil])
    · rw [← List.append_assoc]
      exact below.onWay rest ⟨others, last.symm⟩
  · rw [← List.append_assoc]
    exact below.nothing

/-- Names that lead to an absent place end there or in front of it. -/
theorem Absent.foldlM_step
    (descending : Descending names)
    (absent : tree.Absent location (Path.leading names)) :
    names.foldlM tree.step location = .ok (location ++ Path.leading names) ∨
      names.foldlM tree.step location = .error .notFound := by
  induction names generalizing location with
  | nil => exact .inl (congrArg Except.ok (List.append_nil location).symm)
  | cons name names inductionHypothesis =>
      rw [List.foldlM_cons]
      rcases absent.onWay [] List.nil_prefix with missing | directory
      · rw [List.append_nil] at missing
        refine .inr ?_
        rw [step, needDirectory, missing]
        rfl
      · rw [List.append_nil] at directory
        rw [step_eq_onward directory, onward_of_descending descending,
          Path.leading_cons name names, ← List.append_assoc]
        exact inductionHypothesis
          (fun other present => descending other (List.mem_cons_of_mem _ present)) absent.next

/-- Names that lead to nothing lead to an absent place. -/
theorem Rooted.absent
    (rooted : tree.Rooted)
    (descending : Descending names)
    (nowhere : names.foldlM tree.step location = .error .notFound ∨
      ∃ place, names.foldlM tree.step location = .ok place ∧ tree.entry? place = none) :
    tree.Absent location (Path.leading names) := by
  induction names generalizing location with
  | nil =>
      rcases nowhere with failed | ⟨place, reached, nothing⟩
      · cases failed
      · obtain rfl : location = place := Except.ok.inj reached
        refine ⟨fun front shorter => .inl ?_, by simpa [Path.leading] using nothing⟩
        rw [List.prefix_nil.mp shorter, List.append_nil, nothing]
  | cons name names inductionHypothesis =>
      rw [List.foldlM_cons] at nowhere
      cases entry : tree.entry? location with
      | none =>
          exact ⟨fun front _ => .inl (rooted.nothing_below entry front),
            rooted.nothing_below entry _⟩
      | some found =>
          cases found with
          | directory =>
              rw [step_eq_onward entry, onward_of_descending descending] at nowhere
              exact .of_next entry (inductionHypothesis (fun other present =>
                descending other (List.mem_cons_of_mem _ present)) nowhere)
          | _ =>
              rw [step, needDirectory, entry] at nowhere
              rcases nowhere with failed | ⟨place, reached, -⟩
              · cases failed
              · cases reached

/-- A file is not found where the path leads nowhere, or where nothing stands. -/
theorem read_eq_notFound_iff :
    tree.read path = .error .notFound ↔
      tree.locate path = .error .notFound ∨
        ∃ location, tree.locate path = .ok location ∧ tree.entry? location = none := by
  rw [FileTree.read]
  cases located : tree.locate path with
  | error fault =>
      constructor
      · intro read
        cases read
        exact .inl rfl
      · rintro (failed | ⟨location, reached, -⟩)
        · cases failed
          rfl
        · cases reached
  | ok location =>
      constructor
      · intro read
        refine .inr ⟨location, rfl, ?_⟩
        cases entry : tree.entry? location with
        | none => rfl
        | some found =>
            rw [ok_bind, entry] at read
            cases found <;> cases read
      · rintro (failed | ⟨_, same, nothing⟩)
        · cases failed
        · obtain rfl := Except.ok.inj same
          have read := read_of_nothing located (standing?_eq_none_iff.mpr nothing)
          rwa [FileTree.read, located] at read

/-- A path that is no path is not reported as missing. -/
theorem checkPath_ne_notFound (path : String) : checkPath path ≠ .error .notFound := by
  rw [checkPath]
  split
  · intro same
    cases same
  · intro same
    cases same

/-- No file is found at an absent place. -/
theorem Absent.read_eq_notFound
    (clean : checkPath path = .ok ())
    (descending : Descending (Path.names path))
    (absent : tree.Absent (tree.start path) (Path.way path)) :
    tree.read path = .error .notFound := by
  rw [read_eq_notFound_iff, locate_eq, clean]
  by_cases empty : path = ""
  · rw [if_pos empty]
    exact .inl rfl
  · rw [if_neg empty]
    exact (absent.foldlM_step descending).symm.imp id fun reached => ⟨_, reached, absent.nothing⟩

/-- In a rooted tree, a path that leads down to no file leads to an absent place. -/
theorem Rooted.absent_of_read
    (rooted : tree.Rooted)
    (descending : Descending (Path.names path))
    (nonempty : path ≠ "")
    (read : tree.read path = .error .notFound) :
    checkPath path = .ok () ∧ tree.Absent (tree.start path) (Path.way path) := by
  rw [read_eq_notFound_iff, locate_eq, if_neg nonempty] at read
  cases checked : checkPath path with
  | error fault =>
      rw [checked] at read
      rcases read with failed | ⟨place, reached, -⟩
      · cases failed
        exact absurd checked (checkPath_ne_notFound path)
      · cases reached
  | ok done =>
      rw [checked] at read
      exact ⟨rfl, rooted.absent descending read⟩

end Descending

/-! ## The way to the directory of a path -/

section Passed

variable
  {tree : FileTree}
  {location place last : Location}
  {names : List String}
  {path parent : String}

/-- Going down, a way passes nothing that is deeper than its names. -/
theorem length_le_of_mem_passed
    (noUp : ∀ name ∈ Path.leading names, name ≠ "..")
    (onWay : place ∈ passed location names) :
    place.length ≤ location.length + (Path.leading names).length := by
  induction names generalizing location with
  | nil => cases onWay
  | cons name names inductionHypothesis =>
      rw [passed, onward] at onWay
      by_cases here : Path.isHere name
      · have skipped : Path.leading (name :: names) = Path.leading names := by
          simp [Path.leading, here]
        rw [skipped] at noUp ⊢
        rw [if_pos here] at onWay
        rcases List.mem_cons.mp onWay with rfl | later
        · omega
        · exact inductionHypothesis noUp later
      · have taken : Path.leading (name :: names) = name :: Path.leading names := by
          simp [Path.leading, here]
        rw [taken] at noUp ⊢
        obtain ⟨notUp, noUpRest⟩ := List.forall_mem_cons.mp noUp
        rw [if_neg here, if_neg (by simpa using notUp), List.length_cons] at *
        split at onWay
        · next next found =>
          split at found
          · cases found
          · obtain rfl := Except.ok.inj found
            rcases List.mem_cons.mp onWay with rfl | later
            · rw [List.length_append, List.length_singleton]
              omega
            · have deeper := inductionHypothesis noUpRest later
              rw [List.length_append, List.length_singleton] at deeper
              omega
        · cases onWay

/-- A way that leads somewhere passes directories only. -/
theorem Leads.directory_of_mem_passed
    (leads : tree.Leads location names last)
    (onWay : place ∈ passed location names) :
    tree.entry? place = some .directory := by
  induction names generalizing location with
  | nil => cases onWay
  | cons name names inductionHypothesis =>
      obtain ⟨-, next, onwards, rest⟩ := leads_cons_iff.mp leads
      rw [passed, onwards] at onWay
      rcases List.mem_cons.mp onWay with rfl | later
      · exact rest.start
      · exact inductionHypothesis rest later

/-- The front of a way that leads somewhere leads somewhere. -/
theorem Leads.exists_front
    {front back : List String}
    (leads : tree.Leads location (front ++ back) last) :
    ∃ middle, tree.Leads location front middle := by
  induction front generalizing location with
  | nil => exact ⟨location, rfl, leads.start⟩
  | cons name front inductionHypothesis =>
      obtain ⟨here, next, onwards, rest⟩ := leads_cons_iff.mp leads
      obtain ⟨middle, reached⟩ := inductionHypothesis rest
      exact ⟨middle, leads_cons_iff.mpr ⟨here, next, onwards, reached⟩⟩

theorem wayTo_empty (tree : FileTree) : tree.wayTo "" = [tree.working] := by
  rfl

/-- A directory on the way of a path starts where the path does. -/
theorem start_eq_of_follows
    {front : List String}
    (follows : Path.Follows front path parent)
    (tree : FileTree) :
    tree.start parent = tree.start path := by
  rw [start, start, follows.start]

/-- Where the place of a path is known, all directories on the way to it are there. -/
theorem directory_of_mem_wayTo
    (sound : tree.Sound)
    (located : tree.locate path = .ok location)
    (found : Path.parent? path = some parent)
    (onWay : place ∈ tree.wayTo parent) :
    tree.entry? place = some .directory := by
  rcases Path.exists_of_parent? found with rfl | ⟨front, name, back, shape, -, -, follows⟩
  · rw [wayTo_empty, List.mem_singleton] at onWay
    exact onWay ▸ sound.working
  · obtain ⟨others, final, shapeToo, -⟩ := exists_names_eq_concat path
    obtain ⟨-, -, reached, leads, -⟩ := (locate_eq_ok_iff shapeToo).mp located
    have split := congrArg List.dropLast (shapeToo.symm.trans shape)
    rw [List.dropLast_concat, List.dropLast_append_of_ne_nil (List.cons_ne_nil _ _)] at split
    rw [split] at leads
    obtain ⟨middle, leadsFront⟩ := leads.exists_front
    rw [← start_eq_of_follows follows, ← leads_leading_iff, ← follows.way] at leadsFront
    exact (leads_leading_iff.mp leadsFront).directory_of_mem_passed onWay

/-- Going down, the way to the directory of a path does not reach the place of the path. -/
theorem not_mem_wayTo
    (sound : tree.Sound)
    (descending : Descending (Path.names path))
    (missing : tree.entry? (tree.start path ++ Path.way path) = none)
    (found : Path.parent? path = some parent) :
    tree.start path ++ Path.way path ∉ tree.wayTo parent := by
  intro onWay
  rcases Path.exists_of_parent? found with rfl | ⟨front, name, back, shape, leads, -, follows⟩
  · rw [wayTo_empty, List.mem_singleton] at onWay
    rw [onWay, sound.working] at missing
    cases missing
  · have parts : Path.way path = Path.leading front ++ name :: Path.leading back := by
      rw [Path.way, shape, Path.leading_append]
      simp [Path.leading, leads]
    have noUp : ∀ other ∈ Path.leading (Path.names parent), other ≠ ".." := by
      intro other present
      have inFront : other ∈ Path.leading front := follows.way ▸ present
      refine (descending other ?_).1
      rw [shape]
      exact List.mem_append_left _ (List.mem_filter.mp inFront).1
    have bound := length_le_of_mem_passed noUp onWay
    have way : Path.leading (Path.names parent) = Path.leading front := follows.way
    rw [start_eq_of_follows follows, way, parts, List.length_append, List.length_append,
      List.length_cons] at bound
    omega

/-- A staging file does not stand on a way that leads down to its file. -/
theorem locate_staging_ne
    (descending : Descending (Path.names path))
    {front : List String}
    (shorter : front <+: Path.way path) :
    tree.locate (Files.staging path) ≠ .ok (tree.start path ++ front) := by
  intro located
  obtain ⟨others, final, shape, shapeStaging⟩ := exists_names_eq_concat path
  obtain ⟨-, -, reached, leads, onwards⟩ := (locate_eq_ok_iff shapeStaging).mp located
  rw [start_staging] at leads
  have descendingOthers : Descending others :=
    fun name present => descending name (shape ▸ List.mem_append_left _ present)
  have same := onward_staging_eq_ok onwards
  rw [leads.eq_append descendingOthers, List.append_assoc, List.append_cancel_left_eq] at same
  rw [same, Path.way, shape, Path.leading_append, List.prefix_append_right_inj] at shorter
  have inFinal := List.mem_of_mem_filter (shorter.subset (List.mem_singleton_self _))
  exact Files.staging_ne final (List.mem_singleton.mp inFinal)

end Passed

/-! ## What stays absent -/

section Spared

variable
  {before after : FileTree}
  {path : String}

/-- A path to whose place the directories that may be made on the way make no difference: it leads
down, or its place is known. -/
def Settles (tree : FileTree) (path : String) : Prop :=
  Descending (Path.names path) ∨ ∃ location, tree.locate path = .ok location

/-- A path that settles in a tree settles in one that continues it. -/
theorem Settles.continues
    (settles : before.Settles path)
    (continues : before.Continues after) :
    after.Settles path :=
  settles.imp_right fun ⟨location, located⟩ => ⟨location, locate_continues located continues⟩

/-- What is absent stays so when everything is spared. -/
theorem Absent.of_spared
    (sound : before.Sound)
    (continues : before.Continues after)
    (spared : ∀ location, Spared path before after location)
    (descending : Descending (Path.names path))
    (absent : before.Absent (before.start path) (Path.way path)) :
    after.Absent (after.start path) (Path.way path) := by
  have started : after.start path = before.start path := by
    rw [start, start, continues.working]
  rw [started]
  refine ⟨fun front shorter => ?_, ?_⟩
  · rw [← standing?_eq_none_iff, ← standing?_eq_directory_iff]
    rcases spared (before.start path ++ front) with unchanged | ⟨-, -, -, made, -⟩ | staged
    · rw [unchanged, standing?_eq_none_iff, standing?_eq_directory_iff]
      exact absent.onWay front shorter
    · exact .inr made
    · exact absurd (started ▸ staged) (locate_staging_ne descending shorter)
  · rw [← standing?_eq_none_iff]
    rcases spared (before.start path ++ Path.way path) with
      unchanged | ⟨parent, found, -, -, onWay⟩ | staged
    · rw [unchanged, standing?_eq_none_iff]
      exact absent.nothing
    · exact absurd onWay (not_mem_wayTo sound descending absent.nothing found)
    · exact absurd (started ▸ staged) (locate_staging_ne descending List.prefix_rfl)

/-- When writing a file has failed, a file that was not there is not there. -/
theorem read_eq_notFound_of_spared
    (sound : before.Sound)
    (rooted : before.Rooted)
    (settles : before.Settles path)
    (continues : before.Continues after)
    (spared : ∀ location, Spared path before after location)
    (read : before.read path = .error .notFound) :
    after.read path = .error .notFound := by
  by_cases known : ∃ location, before.locate path = .ok location
  · obtain ⟨location, located⟩ := known
    have locatedAfter := locate_continues located continues
    refine read_eq_notFound_iff.mpr (.inr ⟨location, locatedAfter, ?_⟩)
    have nothing : before.entry? location = none := by
      rcases read_eq_notFound_iff.mp read with failed | ⟨place, same, nothing⟩
      · cases located.symm.trans failed
      · rwa [Except.ok.inj (located.symm.trans same)]
    rw [← standing?_eq_none_iff]
    rcases spared location with unchanged | ⟨parent, found, missing, -, onWay⟩ | staged
    · rwa [unchanged, standing?_eq_none_iff]
    · rw [directory_of_mem_wayTo sound located found onWay] at nothing
      cases nothing
    · exact absurd rfl (ne_of_locate_staging locatedAfter staged)
  · have descending := settles.resolve_right known
    by_cases empty : path = ""
    · rw [read_eq_notFound_iff, locate_eq, if_pos empty, empty]
      exact .inl rfl
    · obtain ⟨clean, absent⟩ := rooted.absent_of_read descending empty read
      exact (absent.of_spared sound continues spared descending).read_eq_notFound clean descending

/-- Names that go through something that is no directory do so as long as it is unchanged. -/
theorem foldlM_step_of_unchanged
    {location : Location}
    {names : List String}
    {fault : FileFault}
    (descending : Descending names)
    (unchanged : ∀ front, front <+: Path.leading names →
      before.entry? (location ++ front) ≠ none →
        after.standing? (location ++ front) = before.standing? (location ++ front))
    (failed : names.foldlM before.step location = .error fault)
    (present : fault ≠ .notFound) :
    names.foldlM after.step location = .error fault := by
  induction names generalizing location with
  | nil => cases failed
  | cons name names inductionHypothesis =>
      rw [List.foldlM_cons] at failed ⊢
      have here := unchanged [] List.nil_prefix
      rw [List.append_nil] at here
      cases entry : before.entry? location with
      | none =>
          rw [step, needDirectory, entry] at failed
          cases failed
          exact absurd rfl present
      | some found =>
          rw [entry] at here
          have standing := here (Option.some_ne_none found)
          by_cases directory : found = .directory
          · subst directory
            have directoryAfter : after.entry? location = some .directory := by
              rwa [← standing?_eq_directory_iff, standing, standing?_eq_directory_iff]
            rw [step_eq_onward entry, onward_of_descending descending] at failed
            rw [step_eq_onward directoryAfter, onward_of_descending descending]
            refine inductionHypothesis (fun other inside =>
              descending other (List.mem_cons_of_mem _ inside)) ?_ failed
            intro front shorter
            rw [List.append_assoc]
            refine unchanged _ ?_
            rw [Path.leading_cons name names]
            exact (List.prefix_append_right_inj _).mpr shorter
          · rw [step_of_not_directory entry directory] at failed
            obtain ⟨other, entryAfter, notDirectory⟩ :
                ∃ other, after.entry? location = some other ∧ other ≠ .directory := by
              rw [standing?, standing?, entry, Option.map_some] at standing
              obtain ⟨other, entryAfter, same⟩ := Option.map_eq_some_iff.mp standing
              refine ⟨other, entryAfter, ?_⟩
              rintro rfl
              cases found with
              | directory => exact directory rfl
              | file number => cases same
              | device isFull => cases same
            rw [step_of_not_directory entryAfter notDirectory]
            exact failed

/-- A path that leads down through something that is no directory leads nowhere else when everything
is spared. -/
theorem locate_of_spared
    {fault : FileFault}
    (continues : before.Continues after)
    (spared : ∀ location, Spared path before after location)
    (descending : Descending (Path.names path))
    (located : before.locate path = .error fault)
    (present : fault ≠ .notFound) :
    after.locate path = .error fault := by
  have started : after.start path = before.start path := by
    rw [start, start, continues.working]
  rw [locate_eq] at located ⊢
  cases checked : checkPath path with
  | error cause => rwa [checked] at located
  | ok done =>
      rw [checked, ok_bind] at located
      rw [ok_bind, started]
      split at located
      · cases located
        exact absurd rfl present
      · next nonempty =>
        rw [if_neg nonempty]
        refine foldlM_step_of_unchanged descending ?_ located present
        intro front shorter stands
        rcases spared (before.start path ++ front) with unchanged | ⟨_, _, missing, _⟩ | staged
        · exact unchanged
        · exact absurd (standing?_eq_none_iff.mp missing) stands
        · exact absurd (started ▸ staged) (locate_staging_ne descending shorter)

/-- What is found at the place of a path but cannot be read is a directory. -/
theorem entry?_of_read_eq_error
    {location : Location}
    {fault : FileFault}
    (located : before.locate path = .ok location)
    (read : before.read path = .error fault)
    (present : fault ≠ .notFound) :
    before.entry? location = some .directory := by
  rw [FileTree.read, located, ok_bind] at read
  cases entry : before.entry? location with
  | none =>
      rw [entry] at read
      cases read
      exact absurd rfl present
  | some found =>
      rw [entry] at read
      cases found with
      | directory => rfl
      | file number => cases read
      | device isFull => cases read

/-- A directory is not read as a file. -/
theorem read_of_directory
    {location : Location}
    (located : before.locate path = .ok location)
    (directory : before.entry? location = some .directory) :
    before.read path = .error .isDirectory := by
  rw [FileTree.read, located, ok_bind, directory]
  rfl

/-- When writing a file has failed, it is read as before if its path settles, whether it was there
or not. -/
theorem read_eq_of_spared
    (sound : before.Sound)
    (rooted : before.Rooted)
    (settles : before.Settles path)
    (continues : before.Continues after)
    (spared : ∀ location, Spared path before after location) :
    after.read path = before.read path := by
  cases read : before.read path with
  | ok content =>
      obtain ⟨location, located⟩ := exists_locate_of_read read
      exact read_of_spared continues located (spared location) read
  | error fault =>
      by_cases missing : fault = .notFound
      · rw [missing] at read ⊢
        exact read_eq_notFound_of_spared sound rooted settles continues spared read
      · cases located : before.locate path with
        | ok location =>
            have directory := entry?_of_read_eq_error located read missing
            rw [← read, read_of_directory located directory]
            exact read_of_directory (locate_continues located continues)
              (continues.directories location directory)
        | error cause =>
            have descending := settles.resolve_right fun ⟨location, known⟩ => by
              cases located.symm.trans known
            rw [FileTree.read, located] at read
            cases read
            rw [FileTree.read, locate_of_spared continues spared descending located missing]
            rfl

/-- While a file is written whose path settles, it is read as before or as the whole new text. -/
theorem Undivided.read_of_settles
    {text : String}
    (undivided : Undivided path text before after)
    (sound : before.Sound)
    (rooted : before.Rooted)
    (settles : before.Settles path) :
    after.read path = before.read path ∨ after.read path = .ok (Bytes.ofText text) := by
  by_cases whole : ∃ location, HasText path text after location
  · obtain ⟨location, located, held⟩ := whole
    exact .inr (read_of_file located held)
  · have spared : ∀ location, Spared path before after location := fun location =>
      (undivided.places location).resolve_right fun hasText => whole ⟨location, hasText⟩
    exact .inl (read_eq_of_spared sound rooted settles undivided.continues spared)

end Spared

/-! ## Names that are too long -/

/-- A path that has a name which no directory can hold. -/
def Overlong (path : String) : Prop :=
  ∃ name ∈ Path.names path, longestName < name.utf8ByteSize

section Overlong

variable
  {tree after : FileTree}
  {location place : Location}
  {names : List String}
  {path : String}

/-- A name that no directory can hold leads nowhere. -/
theorem onward_of_long
    {name : String}
    (long : longestName < name.utf8ByteSize)
    (location : Location) :
    onward location name = .error .nameTooLong := by
  have leads : Path.isHere name = false := by
    rw [Bool.eq_false_iff]
    intro here
    rcases Bool.or_eq_true_iff.mp here with same | same
    · rw [beq_iff_eq.mp same] at long
      exact absurd long (by decide)
    · rw [beq_iff_eq.mp same] at long
      exact absurd long (by decide)
  have notUp : (name == "..") = false := by
    rw [beq_eq_false_iff_ne]
    rintro rfl
    exact absurd long (by decide)
  rw [onward, leads, notUp]
  exact if_pos long

/-- Names lead nowhere if no directory can hold one of them. -/
theorem foldlM_step_ne_ok_of_long
    (overlong : ∃ name ∈ names, longestName < name.utf8ByteSize) :
    names.foldlM tree.step location ≠ .ok place := by
  intro reached
  induction names generalizing location with
  | nil =>
      obtain ⟨name, present, -⟩ := overlong
      cases present
  | cons name names inductionHypothesis =>
      rw [List.foldlM_cons] at reached
      obtain ⟨next, stepped, reached⟩ := bind_eq_ok_iff.mp reached
      obtain ⟨other, present, long⟩ := overlong
      rcases List.mem_cons.mp present with rfl | later
      · rw [step_eq_onward (entry?_of_step_eq_ok stepped), onward_of_long long] at stepped
        cases stepped
      · exact inductionHypothesis ⟨other, later, long⟩ reached

/-- There is no place at a path that has a name which is too long. -/
theorem Overlong.locate_ne_ok (overlong : Overlong path) : tree.locate path ≠ .ok place := by
  intro located
  rw [locate_eq] at located
  obtain ⟨-, -, located⟩ := bind_eq_ok_iff.mp located
  split at located
  · cases located
  · exact foldlM_step_ne_ok_of_long overlong located

theorem Overlong.read_ne_ok
    (overlong : Overlong path)
    {content : Bytes} :
    tree.read path ≠ .ok content := by
  intro read
  obtain ⟨place, located⟩ := exists_locate_of_read read
  exact overlong.locate_ne_ok located

/-- The staging file of a path has a name which is too long if the path has one. -/
theorem Overlong.staging (overlong : Overlong path) : Overlong (Files.staging path) := by
  obtain ⟨front, last, shape, shapeStaging⟩ := exists_names_eq_concat path
  obtain ⟨name, present, long⟩ := overlong
  rw [shape] at present
  rcases List.mem_append.mp present with inFront | isLast
  · exact ⟨name, shapeStaging ▸ List.mem_append_left _ inFront, long⟩
  · obtain rfl := List.mem_singleton.mp isLast
    refine ⟨Files.staging name, by simp [shapeStaging], long.trans_le ?_⟩
    simp [Files.staging]

/-- No file is written at a path that has a name which is too long. -/
theorem Overlong.keeps_writeText
    (overlong : Overlong path)
    (text : String)
    (tree : FileTree) :
    (Files.writeText path text).run.Keeps moves (fun _ => True) (fun result _ => result ≠ .ok ())
      tree := by
  have replaced (tree : FileTree) :
      (Files.replaceText path text).Keeps moves (fun _ => True) (fun result _ => result ≠ .ok ())
        tree := by
    rw [Files.replaceText]
    refine ⟨trivial, ?_⟩
    rintro (fault | _) after moved
    · exact ⟨trivial, by simp⟩
    · obtain ⟨place, located, -⟩ := bind_eq_ok_iff.mp moved
      exact absurd located overlong.staging.locate_ne_ok
  rcases Files.run_writeText path text with ⟨-, direct⟩ | ⟨parent, -, throughParent⟩
  · rw [direct]
    exact replaced tree
  · rw [throughParent]
    refine ⟨trivial, ?_⟩
    rintro (fault | _) after moved
    · exact ⟨trivial, by simp⟩
    · exact replaced after

end Overlong
/-! ## A path that comes to something else -/

/-- A file `bar` with a text, and a directory where its staging file would be. There is no directory
`foo`, and so nothing at `foo/../bar`. -/
def hiddenTree (text : String) : FileTree :=
  ((empty.perform (Files.writeText "bar" text).run).2.perform
    (Files.writeText "bar.tmp/x" "").run).2

/-- Writing a text keeps files well-formed. -/
theorem wellFormed_writeText
    {tree : FileTree}
    (wellFormed : tree.Sound ∧ tree.NoStagedDevice ∧ tree.Rooted)
    (path text : String) :
    (tree.perform (Files.writeText path text).run).2.Sound ∧
      (tree.perform (Files.writeText path text).run).2.NoStagedDevice ∧
      (tree.perform (Files.writeText path text).run).2.Rooted := by
  obtain ⟨sound, noDevice, rooted⟩ := wellFormed
  have whole := (perform_of_keeps (keeps_writeText sound noDevice path text)).1
  refine ⟨whole.continues.sound, whole.noDevice, ?_⟩
  exact (leads_perform _ _).invariant (fun _ _ _ _ moved rooted => rooted.of_moves moved) rooted

/-- The files with a hidden one are well-formed. -/
theorem wellFormed_hiddenTree (text : String) :
    (hiddenTree text).Sound ∧ (hiddenTree text).NoStagedDevice ∧ (hiddenTree text).Rooted := by
  have written :=
    wellFormed_writeText ⟨sound_empty, noStagedDevice_empty, rooted_empty⟩ "bar" text
  exact wellFormed_writeText written "bar.tmp/x" ""

end FileTree
end Valset
