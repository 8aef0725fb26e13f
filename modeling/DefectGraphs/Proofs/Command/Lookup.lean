import DefectGraphs.Command.Run
import DefectGraphs.Proofs.Command.Job
import DefectGraphs.Proofs.Dataset.Shape
import DefectGraphs.Proofs.Token.Cache
import DefectGraphs.Proofs.Token.Descriptor
import DefectGraphs.Proofs.Token.Persistence
import DefectGraphs.Proofs.Token.Ranking

/-!
Descriptors that are looked up by their own text. It is divided at its first colon and laid out anew,
which gives back every descriptor whose kind has no colon, and of the others those that the two
parts of the kind do not change in.
-/

namespace DefectGraphs.Token

open Text

theorem splitLookup_eq {lookup : String} {before after : List Char}
    (cut : lookup.toList = before ++ ':' :: after) (absent : ':' ∉ before) :
    splitLookup lookup = (String.ofList before, String.ofList after) := by
  have kept : ∀ c ∈ before, (c != ':') = true := by
    intro c member
    rw [bne_iff_ne]
    intro same
    exact absent (same ▸ member)
  have kind : lookup.toList.takeWhile (· != ':') = before := by
    rw [cut, List.takeWhile_append_of_pos kept, List.takeWhile_cons_of_neg (by simp),
      List.append_nil]
  rw [splitLookup, kind, cut]
  simp

/-- The tokens that a corpus is trained on are the descriptors of its nodes. -/
theorem exists_node_of_mem_readSentences {tree : Files.Tree} {directory : Files.Path}
    {sentences : List (List String)} (read : Graph.readSentences tree directory = .ok sentences)
    {token : String} (member : token ∈ sentences.flatten) :
    ∃ path nodes node, Graph.readGraph Graph.parseNodes? tree path = .ok nodes ∧ node ∈ nodes ∧
      Graph.Node.descriptor node = token := by
  obtain ⟨sentence, listed, inside⟩ := List.mem_flatten.mp member
  simp only [Graph.readSentences, bind_eq_ok] at read
  obtain ⟨files, -, each⟩ := read
  obtain ⟨path, -, given⟩ := exists_of_mem_mapM each listed
  obtain ⟨nodes, found, same⟩ := map_eq_ok.mp given
  subst same
  obtain ⟨node, within, named⟩ := List.mem_map.mp inside
  exact ⟨path, nodes, node, found, within, named⟩

end DefectGraphs.Token

namespace DefectGraphs.Command

open Token Text

/-- No blank ends what stands before the first colon of the kind, and what stands after it is
spaced. A kind without a colon is one of these. -/
def IsReadBack (kind : String) : Prop :=
  ∀ before after : List Char, (trim kind).toList = before ++ ':' :: after → ':' ∉ before →
    (∀ c ∈ before.getLast?, isBlank c = false) ∧ IsSpaced after

theorem isReadBack_of_notMem {kind : String} (plain : ':' ∉ kind.toList) : IsReadBack kind := by
  intro before after cut _
  have member : ':' ∈ (trim kind).toList := by
    rw [cut]
    simp
  exact absurd (mem_of_mem_trim member) plain

section Lookup

variable {lookup : String} {before after : List Char}

theorem toList_lookupDescriptor (cut : lookup.toList = before ++ ':' :: after)
    (absent : ':' ∉ before) : (lookupDescriptor lookup).toList =
      trimChars before ++ ':' :: [' '].intercalate (wordChars after) := by
  rw [lookupDescriptor, splitLookup_eq cut absent]
  dsimp only
  rw [toList_descriptor, toList_trim, String.toList_ofList, String.toList_ofList]

/-- A text is its own descriptor when it is laid out as one on both sides of its first colon. -/
theorem lookupDescriptor_eq_self_iff (cut : lookup.toList = before ++ ':' :: after)
    (absent : ':' ∉ before) : lookupDescriptor lookup = lookup ↔
      ((∀ c ∈ before.head?, isBlank c = false) ∧ ∀ c ∈ before.getLast?, isBlank c = false) ∧
        IsSpaced after := by
  have absent' : ':' ∉ trimChars before := by
    intro member
    apply absent
    have kept : ':' ∈ (trim (String.ofList before)).toList := by
      rwa [toList_trim, String.toList_ofList]
    simpa using mem_of_mem_trim kept
  rw [← String.toList_inj, toList_lookupDescriptor cut absent, cut,
    append_cons_inj_left absent' absent, trimChars_eq_self_iff, intercalate_wordChars_eq_self_iff]

end Lookup

theorem lookupDescriptor_descriptor_iff (kind text : String) :
    lookupDescriptor (descriptor kind text) = descriptor kind text ↔ IsReadBack kind := by
  have whole := toList_descriptor kind text
  have first : ∀ c ∈ (trim kind).toList.head?, isBlank c = false := by
    rw [toList_trim]
    exact isBlank_of_mem_head?_trimChars
  have last : ∀ c ∈ (trim kind).toList.getLast?, isBlank c = false := by
    rw [toList_trim]
    exact isBlank_of_mem_getLast?_trimChars
  by_cases colon : ':' ∈ (trim kind).toList
  · obtain ⟨before, after, cut, absent⟩ := List.eq_append_cons_of_mem colon
    rw [cut, List.append_assoc, List.cons_append] at whole
    rw [cut] at first last
    have starts : ∀ c ∈ before.head?, isBlank c = false := by
      intro c member
      exact first c (by rw [List.head?_append, Option.mem_def.mp member]; rfl)
    have ends : ∀ c ∈ after.getLast?, isBlank c = false := by
      intro c member
      apply last c
      rw [List.getLast?_append_of_ne_nil _ (by simp), List.getLast?_cons, Option.mem_def.mp member]
      rfl
    rw [lookupDescriptor_eq_self_iff whole absent,
      isSpaced_append_cons_iff rfl ends (isSpaced_words text)]
    constructor
    · intro ⟨⟨_, last⟩, spaced⟩ before' after' cut' absent'
      rw [cut, append_cons_inj_left absent absent'] at cut'
      obtain ⟨rfl, rfl⟩ := cut'
      exact ⟨last, spaced⟩
    · intro readBack
      obtain ⟨last, spaced⟩ := readBack before after cut absent
      exact ⟨⟨starts, last⟩, spaced⟩
  · rw [lookupDescriptor_eq_self_iff whole colon]
    have plain : IsReadBack kind := by
      intro before after cut _
      rw [cut] at colon
      simp at colon
    exact iff_of_true ⟨⟨first, last⟩, isSpaced_words text⟩ plain

/-- The line that a text to look up is answered with. -/
def answer (model : Model) (lookup : String) : Line :=
  lookupLine (model.vector (lookupDescriptor lookup)) (lookupDescriptor lookup)

theorem isSuffix_embedReport (wasThere : Bool) (path : Files.Path) (model : Model)
    (lookups : List String) :
    lookups.map (answer model) ++ [blankLine] <:+ embedReport wasThere path model lookups := by
  have vectors := (Cache.faithful_empty model.embedding).lookupAll_fst
    (lookups.map lookupDescriptor)
  have lines : List.zipWith lookupLine
      ((lookups.map lookupDescriptor).map model.embedding.vector) (lookups.map lookupDescriptor) =
        lookups.map (answer model) := by
    simp only [List.map_map, List.zipWith_map, List.zipWith_self]
    rfl
  simp only [embedReport, vectors, lines]
  rw [List.append_assoc]
  exact List.suffix_append _ _

/-- The lines end with the answers to the texts, all by one model that the source gave. -/
def AnswersAll (source : Source) (lookups : List String) (lines : List Line) (after : Workspace) :
    Prop :=
  ∃ (settings : Settings) (before : Workspace) (model : Model),
    (Model.loadOrTrain source settings.backend settings.training).Gives before model after ∧
      lookups.map (answer model) ++ [blankLine] <:+ lines

/-- The token is the descriptor of a node in some file, and looking it up finds its own row just when
the kind of the node is read back. -/
def IsFoundByKind (tree : Files.Tree) (vocabulary : Vocabulary) (token : String) : Prop :=
  ∃ path nodes node, Graph.readGraph Graph.parseNodes? tree path = .ok nodes ∧ node ∈ nodes ∧
    Graph.Node.descriptor node = token ∧
      (vocabulary.indexOf? (lookupDescriptor token) = vocabulary.indexOf? token ↔
        IsReadBack node.kind)

/-- An invocation that looks up texts, with the flags of another. -/
def Invocation.forLookups (shared : Invocation) (corpus : Files.Path)
    (vocabulary : Option Files.Path) (lookups : List String) : Invocation :=
  { shared with action := .embed corpus vocabulary lookups }

theorem answersAll_of_gives {shared : Invocation} {corpus : Files.Path}
    {vocabulary : Option Files.Path} {lookups : List String} {before after : Workspace}
    {lines : List Line}
    (succeeds : (shared.forLookups corpus vocabulary lookups).run.Gives before lines after) :
    AnswersAll ⟨corpus, vocabulary.getD corpus, shared.cache⟩ lookups lines after := by
  simp only [Invocation.forLookups, Invocation.run, runEmbed, Job.gives_bind, Job.gives_pure]
    at succeeds
  obtain ⟨settings, _, -, _, _, -, _, middle, -, model, _, loads, same, rfl⟩ := succeeds
  rw [Job.within, Job.gives_adapt] at loads
  refine ⟨settings, middle, model, loads, ?_⟩
  rw [← same]
  exact isSuffix_embedReport _ _ model lookups

theorem isFoundByKind_of_train {source : Source} {tree : Files.Tree} {backend : Backend}
    {training : Training} {model : Model} (trained : source.train tree backend training = .ok model)
    {token : String} (member : token ∈ model.vocabulary.tokens) :
    IsFoundByKind tree model.vocabulary token := by
  obtain ⟨-, sentences, read, -, trains⟩ := Source.train_eq_ok.mp trained
  obtain ⟨-, -, same⟩ := Model.train_eq_ok.mp trains
  have built : model.vocabulary = .build sentences training.minCount := by
    rw [← same]
    rfl
  rw [built] at member ⊢
  obtain ⟨listed, -⟩ := Vocabulary.mem_tokens_build.mp member
  obtain ⟨path, nodes, node, found, inside, named⟩ := exists_node_of_mem_readSentences read listed
  refine ⟨path, nodes, node, found, inside, named, ?_⟩
  rw [← lookupDescriptor_descriptor_iff node.kind node.text, ← Graph.Node.descriptor, named]
  constructor
  · intro same
    obtain ⟨index, own⟩ := Vocabulary.exists_indexOf?_of_mem member
    have first := Vocabulary.token?_of_indexOf? own
    have second := Vocabulary.token?_of_indexOf? (same.trans own)
    exact Option.some.inj (second.symm.trans first)
  · intro same
    rw [same]

/-- A descriptor that is looked up by its own text is found just when its kind is read back, as every
kind without a colon is. This goes for each text that the command answers, and for the entries of a
trained vocabulary. -/
theorem lookupDescriptor_finds_iff (kind text : String) :
    (lookupDescriptor (descriptor kind text) = descriptor kind text ↔ IsReadBack kind) ∧
    (':' ∉ kind.toList → IsReadBack kind) ∧
    (∀ (shared : Invocation) (corpus : Files.Path) (vocabulary : Option Files.Path)
        (lookups : List String) (before after : Workspace) (lines : List Line),
      (shared.forLookups corpus vocabulary lookups).run.Gives before lines after →
        AnswersAll ⟨corpus, vocabulary.getD corpus, shared.cache⟩ lookups lines after) ∧
    ∀ (source : Source) (tree : Files.Tree) (backend : Backend) (training : Training)
        (model : Model), source.train tree backend training = .ok model →
      ∀ token ∈ model.vocabulary.tokens, IsFoundByKind tree model.vocabulary token := by
  refine ⟨lookupDescriptor_descriptor_iff kind text, isReadBack_of_notMem, ?_, ?_⟩
  · intro shared corpus vocabulary lookups before after lines succeeds
    exact answersAll_of_gives succeeds
  · intro source tree backend training model trained token member
    exact isFoundByKind_of_train trained member

/-- The blank before the first colon is lost. -/
theorem lookupDescriptor_blankBeforeColon :
    descriptor "A :B" "x" = "A :B:x" ∧ lookupDescriptor "A :B:x" = "A:B:x" := by
  decide

/-- The one node of a corpus, looked up with spaces around its parts. -/
def lookUpOtherSize : Invocation :=
  ⟨.info, none, none, "cache", .embed "corpus" none ["METHOD:main", " METHOD :\tmain "]⟩

theorem lookupDescriptor_finds_iff_otherSize :
    lookupDescriptor "METHOD:main" = "METHOD:main" ∧
      (∃ lines after, lookUpOtherSize.run.Gives Dataset.otherSize lines after ∧
        AnswersAll ⟨"corpus", "corpus", "cache"⟩ ["METHOD:main", " METHOD :\tmain "] lines after) ∧
      ∃ token ∈ Model.firstModel.vocabulary.tokens,
        IsFoundByKind Model.firstCorpus.tree Model.firstModel.vocabulary token := by
  obtain ⟨own, plain, answers, tokens⟩ := lookupDescriptor_finds_iff "METHOD" "main"
  obtain ⟨lines, after, succeeds⟩ :
      ∃ lines after, lookUpOtherSize.run.Gives Dataset.otherSize lines after :=
    Job.exists_gives_of_isOk (by decide +kernel)
  have named : descriptor "METHOD" "main" = "METHOD:main" := by decide
  have first := own.mpr (plain (by decide))
  rw [named] at first
  exact ⟨first, ⟨lines, after, succeeds, answers lookUpOtherSize "corpus" none _ _ _ _ succeeds⟩,
    "METHOD:main", by decide, tokens _ _ _ _ _ Model.train_firstCorpus _ (by decide)⟩

end DefectGraphs.Command
