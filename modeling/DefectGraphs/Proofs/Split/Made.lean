import DefectGraphs.Proofs.Label.Target
import DefectGraphs.Proofs.Split.Deal
import DefectGraphs.Proofs.Split.ReadBack

/-!
A manifest is made where nothing is, and making it touches nothing but its file and the directories
that were missing on the way. What is there already is read as it is, and a corpus that cannot be
divided leaves no trace.
-/

namespace DefectGraphs.Split

open Files

/-- Why the stratum of a graph file cannot be told. -/
inductive Unread (tree : Tree) (path : Path) : Failure → Prop
  | unreadable {fault : Fault} (unread : tree.readText path = .error fault) :
      Unread tree path (.io path fault)
  | malformed {content : String} (read : tree.readText path = .ok content)
      (noGraph : Graph.Heading.parse? content = none) : Unread tree path (.malformedGraph path)
  | unknownLanguage {content : String} {heading : Graph.Heading} {source : Path}
      (read : tree.readText path = .ok content)
      (graph : Graph.Heading.parse? content = some heading) (named : heading.filePath = some source)
      (unknown : (Path.extension source).bind Label.Language.ofExtension? = none) :
      Unread tree path (.unknownLanguage source)

theorem readGraph_eq_ok {read : String → Option α} {tree : Tree} {path : Path} {value : α} :
    Graph.readGraph read tree path = .ok value ↔
      ∃ content, tree.readText path = .ok content ∧ read content = some value := by
  unfold Graph.readGraph
  cases tree.readText path with
  | error fault => simp
  | ok content => cases made : read content <;> simp [made]

theorem readGraph_eq_error {read : String → Option α} {tree : Tree} {path : Path}
    {failure : Failure} :
    Graph.readGraph read tree path = .error failure ↔
      (∃ fault, tree.readText path = .error fault ∧ .io path fault = failure) ∨
        ∃ content, tree.readText path = .ok content ∧ read content = none ∧
          .malformedGraph path = failure := by
  unfold Graph.readGraph
  cases tree.readText path with
  | error fault => simp
  | ok content => cases made : read content <;> simp [made]

theorem readStratum_eq_error_iff {tree : Tree} {path : Path} {failure : Failure} :
    readStratum tree path = .error failure ↔ Unread tree path failure := by
  rw [readStratum, bind_eq_error, readGraph_eq_error]
  simp only [readGraph_eq_ok]
  constructor
  · rintro ((⟨fault, unread, rfl⟩ | ⟨content, read, noGraph, rfl⟩) |
      ⟨heading, ⟨content, read, graph⟩, fails⟩)
    · exact .unreadable unread
    · exact .malformed read noGraph
    · cases named : heading.filePath with
      | none =>
          rw [named] at fails
          cases fails
      | some source =>
          rw [named] at fails
          rcases bind_eq_error.mp fails with noLanguage | ⟨_, -, fails⟩
          · obtain ⟨unknown, rfl⟩ := Label.Language.ofPath_eq_error.mp noLanguage
            exact .unknownLanguage read graph named (Label.Language.isUnknown_iff.mp unknown)
          · cases fails
  · intro unread
    cases unread with
    | unreadable unread => exact .inl (.inl ⟨_, unread, rfl⟩)
    | malformed read noGraph => exact .inl (.inr ⟨_, read, noGraph, rfl⟩)
    | unknownLanguage read graph named unknown =>
        refine .inr ⟨_, ⟨_, read, graph⟩, ?_⟩
        rw [named]
        exact bind_eq_error.mpr (.inl (Label.Language.ofPath_eq_error.mpr
          ⟨Label.Language.isUnknown_iff.mpr unknown, rfl⟩))

/-- Why no manifest can be made for a corpus. -/
inductive Refused (tree : Tree) (directory : Path) (splits : Nat) : Failure → Prop
  | tooFew (few : splits < minSplits) :
      Refused tree directory splits (.settings (.tooFewSplits splits))
  | missing (enough : minSplits ≤ splits) (none : tree.isDirectory directory = false) :
      Refused tree directory splits (.missingCorpus directory)
  | unread (enough : minSplits ≤ splits) (present : tree.isDirectory directory = true)
      {names : List String} (listed : Graph.graphNames tree directory = .ok names) {name : String}
      (member : name ∈ names) {failure : Failure}
      (unread : Unread tree (directory.join name) failure) : Refused tree directory splits failure

/-- The graph files of a corpus, by their names, and the stratum of each. -/
def survey (tree : Tree) (directory : Path) (splits : Nat) :
    Except Failure (List String × List String) := do
  if splits < minSplits then
    throw (.settings (.tooFewSplits splits))
  if !tree.isDirectory directory then
    throw (.missingCorpus directory)
  let names ← Graph.graphNames tree directory
  let strata ← names.mapM fun name => readStratum tree (directory.join name)
  return (names, strata)

theorem exists_graphNames {tree : Tree} {directory : Path}
    (present : tree.isDirectory directory = true) :
    ∃ names, Graph.graphNames tree directory = .ok names := by
  unfold Tree.isDirectory at present
  unfold Graph.graphNames Tree.list
  cases found : tree.node directory with
  | error fault => simp [found] at present
  | ok node => exact ⟨_, rfl⟩

theorem refused_of_survey {tree : Tree} {directory : Path} {splits : Nat} {failure : Failure}
    (fails : survey tree directory splits = .error failure) :
    Refused tree directory splits failure := by
  simp only [survey, guard_eq_error, bind_eq_error] at fails
  rcases fails with ⟨few, rfl⟩ | ⟨enough, ⟨none, rfl⟩ | ⟨present, fails⟩⟩
  · exact .tooFew few
  · exact .missing (Nat.le_of_not_lt enough) (by simpa using none)
  · have present : tree.isDirectory directory = true := by simpa using present
    obtain ⟨names, listed⟩ := exists_graphNames present
    rcases fails with unlisted | ⟨_, listed', unread | ⟨_, -, fails⟩⟩
    · rw [listed] at unlisted
      cases unlisted
    · obtain ⟨before, name, after, rfl, -, unread⟩ := exists_of_mapM_eq_error unread
      exact .unread (Nat.le_of_not_lt enough) present listed' (by simp)
        (readStratum_eq_error_iff.mp unread)
    · cases fails

theorem not_refused_of_survey {tree : Tree} {directory : Path} {splits : Nat}
    {found : List String × List String} (surveyed : survey tree directory splits = .ok found)
    (failure : Failure) : ¬Refused tree directory splits failure := by
  simp only [survey, guard_eq_ok, bind_eq_ok] at surveyed
  obtain ⟨enough, present, names, listed, strata, read, -⟩ := surveyed
  intro refused
  cases refused with
  | tooFew few => exact enough few
  | missing _ none => simp [none] at present
  | unread _ _ listed' member unread =>
      rw [listed] at listed'
      cases listed'
      obtain ⟨stratum, given⟩ := exists_mapM_eq_ok_iff.mp ⟨strata, read⟩ _ member
      rw [readStratum_eq_error_iff.mpr unread] at given
      cases given

namespace Manifest

theorem run_of_present {directory path : Path} {splits seed : Nat} {before : Workspace}
    (present : before.tree.isPresent path = true) :
    (loadOrGenerate directory path splits seed).run.run before =
      (load before.tree path,
        { before with notices := before.notices ++ [.reusedManifest path] }) := by
  simp only [loadOrGenerate, Work.run_bind, Work.run_tree]
  rw [present, if_pos rfl]
  simp only [Work.run_bind, Work.run_note, Work.run_ofExcept]

theorem run_of_absent {directory path : Path} {splits seed : Nat} {before : Workspace}
    (absent : before.tree.isPresent path = false) :
    (loadOrGenerate directory path splits seed).run.run before =
      match survey before.tree directory splits with
      | .error failure => (.error failure, before)
      | .ok (names, strata) =>
        let manifest := stratified names strata splits seed
        match (manifest.write path).run.run before with
        | (.error failure, written) => (.error failure, written)
        | (.ok _, written) => (.ok manifest, { written with
            notices := written.notices ++ [.wroteManifest splits names.length path] }) := by
  simp only [loadOrGenerate, survey, Work.run_bind, Work.run_tree]
  rw [absent, if_neg Bool.false_ne_true]
  split
  · rfl
  · split
    · rfl
    · simp only [Work.run_bind, Work.run_ofExcept, Work.run_note]
      cases Graph.graphNames before.tree directory with
      | error failure => rfl
      | ok names =>
          rw [ok_bind]
          dsimp only
          cases names.mapM fun name => readStratum before.tree (directory.join name) with
          | error failure => rfl
          | ok strata =>
              rw [ok_bind]
              dsimp only [pure, Except.pure]
              rcases ((stratified names strata splits seed).write path).run.run before with
                ⟨_ | _, _⟩ <;> rfl

theorem run_write (manifest : Manifest) (path : Path) (before : Workspace) :
    (manifest.write path).run.run before =
      match before.tree.makeDirectories path.parent with
      | (.error fault, made) => (.error (.io path.parent fault), { before with tree := made })
      | (.ok (), made) =>
        match made.write path manifest.text.toUTF8 with
        | .error fault => (.error (.io path fault), { before with tree := made })
        | .ok changed => (.ok (), { before with tree := changed }) := by
  unfold write
  by_cases working : path.parent.isEmpty = true
  · have ready : before.tree.makeDirectories path.parent = (.ok (), before.tree) := by
      rw [Tree.makeDirectories, if_pos working]
    rw [ready, if_neg (by simp [working]), Work.run_change]
    dsimp only
    cases before.tree.write path manifest.text.toUTF8 <;> rfl
  · rw [if_pos (by simpa using working), Work.run_bind, Work.run_makeDirectories]
    rcases before.tree.makeDirectories path.parent with ⟨fault | _, made⟩
    · rfl
    · dsimp only [Except.mapError]
      rw [Work.run_change]
      dsimp only
      cases made.write path manifest.text.toUTF8 <;> rfl

/-- What is left where a file was written: the file, and directories that were missing. -/
structure Written (path : Path) (content : ByteArray) (before after : Tree) : Prop where
  held : after.read path = .ok content
  working : after.working = before.working
  others : ∀ location, after.locate path ≠ .ok location →
    after.item? location = before.item? location ∨
      (before.item? location = none ∧ after.item? location = some .directory ∧
        ∃ directory ∈ path.parent :: path.parent.ancestors, after.locate directory = .ok location)

theorem written_of_gives {manifest : Manifest} {path : Path} {before after : Workspace}
    (gives : (manifest.write path).Gives before () after) :
    Written path manifest.text.toUTF8 before.tree after.tree := by
  have grows := Tree.Grows.makeDirectories path.parent before.tree
  rw [Work.Gives, run_write] at gives
  split at gives
  · cases gives
  · rename_i made ready
    rw [ready] at grows
    split at gives
    · cases gives
    · rename_i changed wrote
      cases gives
      have keeps : Tree.Keeps (fun _ => True) made changed := .write trivial wrote
      obtain ⟨directory, name, -, located, shown⟩ := Tree.item?_write wrote
      refine ⟨Tree.read_write wrote, keeps.working.symm.trans grows.working, ?_⟩
      intro location other
      have same : changed.item? location = made.item? location := by
        rw [shown, if_neg]
        rintro rfl
        exact other located
      rcases grows.item location with old | ⟨nothing, new, path, member, leads⟩
      · exact .inl (same.trans old)
      · refine .inr ⟨nothing, same.trans new, path, member, ?_⟩
        exact keeps.locate_of_not_file leads (by simp [same, new])

/-- What asking for the manifest at a path does to the files. -/
structure TouchesOnly (directory path : Path) (splits seed : Nat) (before : Workspace) :
    Prop where
  reuses : before.tree.isPresent path = true →
    (loadOrGenerate directory path splits seed).run.run before =
      (load before.tree path,
        { before with notices := before.notices ++ [.reusedManifest path] })
  refuses : before.tree.isPresent path = false →
    (∃ failure, Refused before.tree directory splits failure) →
      ∃ failure, Refused before.tree directory splits failure ∧
        (loadOrGenerate directory path splits seed).run.run before = (.error failure, before)
  /-- Whatever else fails is the writing of the manifest. -/
  fails : before.tree.isPresent path = false → ∀ failure after,
    (loadOrGenerate directory path splits seed).run.run before = (.error failure, after) →
      (Refused before.tree directory splits failure ∧ after = before) ∨
        ∃ names strata, survey before.tree directory splits = .ok (names, strata) ∧
          ((stratified names strata splits seed).write path).run.run before =
            (.error failure, after)
  makes : before.tree.isPresent path = false → ∀ manifest after,
    (loadOrGenerate directory path splits seed).Gives before manifest after →
      ∃ names, Graph.graphNames before.tree directory = .ok names ∧
        manifest.entries.length = splits * names.length ∧
        (∀ split < splits, (Fold.all.flatMap (manifest.filenames split)).Perm names) ∧
        Written path manifest.text.toUTF8 before.tree after.tree

/-- A manifest that is there is read, and a corpus that is refused changes nothing. Where a manifest
is made its file is all that is new, with the directories that it needs. -/
theorem loadOrGenerate_touchesOnly (directory path : Path) (splits seed : Nat)
    (before : Workspace) : TouchesOnly directory path splits seed before where
  reuses := run_of_present
  refuses := by
    rintro absent ⟨failure, refused⟩
    rw [run_of_absent absent]
    cases surveyed : survey before.tree directory splits with
    | error first => exact ⟨first, refused_of_survey surveyed, rfl⟩
    | ok found => exact absurd refused (not_refused_of_survey surveyed failure)
  fails := by
    intro absent failure after failed
    rw [run_of_absent absent] at failed
    cases surveyed : survey before.tree directory splits with
    | error first =>
        rw [surveyed] at failed
        cases failed
        exact .inl ⟨refused_of_survey surveyed, rfl⟩
    | ok found =>
        rw [surveyed] at failed
        refine .inr ⟨found.1, found.2, rfl, ?_⟩
        dsimp only at failed
        split at failed
        · cases failed
          assumption
        · cases failed
  makes := by
    intro absent manifest after made
    obtain ⟨enough, -, names, strata, written, listed, -, rfl, wrote, rfl⟩ :=
      (gives_loadOrGenerate absent).mp made
    have left := written_of_gives wrote
    exact ⟨names, listed, length_entries_stratified names strata splits seed,
      fun split within => stratified_partitions names strata splits seed within, left⟩

theorem loadOrGenerate_touchesOnly_newDirectory : ∃ manifest after,
    (loadOrGenerate "data" "new/split.txt" 3 42).Gives (graphNamed "a.json") manifest after ∧
      manifest.entries.length = 3 ∧ manifest.filenames 0 .test = ["a.json"] ∧
      Written "new/split.txt" manifest.text.toUTF8 (graphNamed "a.json").tree after.tree := by
  have absent : (graphNamed "a.json").tree.isPresent "new/split.txt" = false := by decide +kernel
  have given : ((loadOrGenerate "data" "new/split.txt" 3 42).run.run (graphNamed "a.json")).1 =
      .ok ⟨[⟨0, .test, "a.json"⟩, ⟨1, .validation, "a.json"⟩, ⟨2, .validation, "a.json"⟩]⟩ := by
    decide +kernel
  have made := Work.gives_of_fst_eq given
  obtain ⟨_, -, -, -, written⟩ :=
    (loadOrGenerate_touchesOnly "data" "new/split.txt" 3 42 _).makes absent _ _ made
  exact ⟨_, _, made, rfl, by decide, written⟩

end Manifest

end DefectGraphs.Split
