import DefectGraphs.Proofs.Grouping
import DefectGraphs.Token.Vocabulary

/-!
The vocabulary that is built of sentences: each token with the number of its occurrences, if it has
enough of them.
-/

namespace DefectGraphs.Token.Vocabulary

theorem getD_foldl_alter (tokens : List String) (counts : Std.HashMap String Nat) (token : String) :
    (tokens.foldl (fun counts token => counts.alter token fun count => some (count.getD 0 + 1))
      counts).getD token 0 = counts.getD token 0 + tokens.count token := by
  induction tokens generalizing counts with
  | nil => simp
  | cons head tail induction =>
      rw [List.foldl_cons, induction, List.count_cons]
      by_cases same : head = token
      · subst same
        rw [Std.HashMap.getD_alter_self, if_pos (beq_self_eq_true head),
          ← Std.HashMap.getD_eq_getD_getElem?, Option.getD_some, Nat.add_right_comm, Nat.add_assoc]
      · rw [Std.HashMap.getD_alter, if_neg (by simpa using same), if_neg (by simpa using same),
          Nat.add_zero]

theorem getD_tally (tokens : List String) (token : String) :
    (tally tokens).getD token 0 = tokens.count token := by
  rw [tally, getD_foldl_alter]
  simp

theorem foldl_insert_eq (tokens : List String) {seen : Std.HashMap String Unit}
    {found : List String} (agree : ∀ token, seen.contains token = found.contains token) :
    (tokens.foldl
      (fun (seen, found) token =>
        if seen.contains token then (seen, found) else (seen.insert token (), token :: found))
      (seen, found)).2 = (tokens.filter (!found.contains ·)).eraseDups.reverse ++ found := by
  induction tokens generalizing seen found with
  | nil => rfl
  | cons head tail induction =>
      rw [List.foldl_cons]
      dsimp only
      split
      next old =>
        rw [agree] at old
        rw [induction agree, List.filter_cons_of_neg (by simpa using old)]
      next new =>
        rw [agree] at new
        have agree' : ∀ token, (seen.insert head ()).contains token =
            (head :: found).contains token := by
          intro token
          rw [Std.HashMap.contains_insert, List.contains_cons, agree token, BEq.comm]
        have others : tail.filter (!(head :: found).contains ·) =
            (tail.filter (!found.contains ·)).filter (!· == head) := by
          rw [List.filter_filter]
          simp only [List.contains_cons, Bool.not_or]
        rw [induction agree', List.filter_cons_of_pos (by simpa using new), List.eraseDups_cons,
          others, List.reverse_cons, List.append_assoc, List.singleton_append]

theorem distinct_eq (tokens : List String) : distinct tokens = tokens.eraseDups := by
  rw [distinct, foldl_insert_eq tokens (by simp)]
  simp

/-- Whether a text is found often enough among tokens. -/
def isFrequent (minCount : Nat) (tokens : List String) (token : String) : Bool :=
  minCount ≤ tokens.count token

/-- Before they are ranked, the entries are the frequent tokens in the order of their appearance. -/
theorem entries_build (sentences : List (List String)) (minCount : Nat) :
    (build sentences minCount).entries =
      ((sentences.flatten.filter (isFrequent minCount sentences.flatten)).eraseDups.map fun token =>
        (token, sentences.flatten.count token)).mergeSort fun left right => right.2 ≤ left.2 := by
  simp only [build, ofEntries, getD_tally, distinct_eq, eraseDups_filter, List.filter_map]
  rfl

theorem mem_entries_build {sentences : List (List String)} {minCount : Nat} {token : String}
    {count : Nat} :
    (token, count) ∈ (build sentences minCount).entries ↔
      token ∈ sentences.flatten ∧ sentences.flatten.count token = count ∧ minCount ≤ count := by
  simp only [entries_build, List.mem_mergeSort, List.mem_map, List.mem_eraseDups, List.mem_filter,
    isFrequent, Prod.mk.injEq, decide_eq_true_eq]
  constructor
  · rintro ⟨_, ⟨member, enough⟩, rfl, rfl⟩
    exact ⟨member, rfl, enough⟩
  · rintro ⟨member, rfl, enough⟩
    exact ⟨token, ⟨member, enough⟩, rfl, rfl⟩

theorem mem_tokens_build {sentences : List (List String)} {minCount : Nat} {token : String} :
    token ∈ (build sentences minCount).tokens ↔
      token ∈ sentences.flatten ∧ minCount ≤ sentences.flatten.count token := by
  simp [tokens, mem_entries_build]

theorem token?_of_indexOf? {vocabulary : Vocabulary} {token : String} {index : Nat}
    (found : vocabulary.indexOf? token = some index) : vocabulary.token? index = some token := by
  rw [indexOf?_eq, List.idxOf?_eq_some_iff] at found
  obtain ⟨within, same, -⟩ := found
  rw [token?, ← List.getElem?_map, ← tokens, List.getElem?_eq_getElem within, same]

theorem exists_indexOf?_of_mem {vocabulary : Vocabulary} {token : String}
    (member : token ∈ vocabulary.tokens) : ∃ index, vocabulary.indexOf? token = some index := by
  rw [indexOf?_eq, ← Option.isSome_iff_exists, List.isSome_idxOf?]
  exact member

/-- When no token is too rare, every token of the sentences has a row. -/
theorem exists_indexOf?_build {sentences : List (List String)} {minCount : Nat} (all : minCount ≤ 1)
    {token : String} (member : token ∈ sentences.flatten) :
    ∃ index, (build sentences minCount).indexOf? token = some index := by
  apply exists_indexOf?_of_mem
  have occurs := List.count_pos_iff.mpr member
  exact mem_tokens_build.mpr ⟨member, by omega⟩

end DefectGraphs.Token.Vocabulary
