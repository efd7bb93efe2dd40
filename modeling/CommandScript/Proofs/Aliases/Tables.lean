import CommandScript.Proofs.Course.Moves

/-! Alias tables in which every name has one alias at most, whatever its case. Tables stay like that when an alias is
defined, redefined or removed, whichever table it is in; among such tables the order in which they are searched does
not matter, and a name that is removed is gone. -/

namespace CommandScript

namespace AliasTable

def names (tables : List AliasTable) : List Text := tables.flatten.map (Text.lower ·.name)

def Lacks (tables : List AliasTable) (name : Text) : Prop := Text.lower name ∉ names tables

theorem names_cons (table : AliasTable) (rest : List AliasTable) :
    names (table :: rest) = table.map (Text.lower ·.name) ++ names rest := by
  simp only [names, List.flatten_cons, List.map_append]

theorem redefine_names (entry : Alias) (table : AliasTable) :
    (redefine entry table).map (Text.lower ·.name) = table.map (Text.lower ·.name) := by
  induction table with
  | nil => rfl
  | cons first rest ih =>
      unfold redefine
      split
      · rfl
      · simp only [List.map_cons, ih]

theorem modify_redefine_names (entry : Alias) (tables : List AliasTable) (place : Nat) :
    names (tables.modify place (redefine entry)) = names tables := by
  induction tables generalizing place with
  | nil => simp
  | cons table rest ih =>
      cases place with
      | zero => simp only [List.modify_zero_cons, names_cons, redefine_names]
      | succ place => simp only [List.modify_succ_cons, names_cons, ih]

theorem modify_append_names (entry : Alias) {tables : List AliasTable} {target : Nat}
    (inside : target < tables.length) :
    (names (tables.modify target (· ++ [entry]))).Perm (Text.lower entry.name :: names tables) := by
  induction tables generalizing target with
  | nil => cases inside
  | cons table rest ih =>
      cases target with
      | zero =>
          simp only [List.modify_zero_cons, names_cons, List.map_append, List.map_cons, List.map_nil, List.append_assoc,
            List.singleton_append]
          exact List.perm_middle
      | succ target =>
          have inner := ih (Nat.lt_of_succ_lt_succ inside)
          simp only [List.modify_succ_cons, names_cons]
          exact (inner.append_left _).trans List.perm_middle

theorem lacks_iff {tables : List AliasTable} {name : Text} :
    Lacks tables name ↔ ∀ table ∈ tables, has table name = false := by
  simp only [Lacks, names, has, find?, Alias.answers, List.mem_map, List.mem_flatten, Option.isSome_eq_false_iff,
    Option.isNone_iff_eq_none, List.find?_eq_none, decide_eq_true_eq, not_exists, not_and]
  exact ⟨fun lacks table inside entry member => lacks entry ⟨table, inside, member⟩,
    fun none entry ⟨table, inside, member⟩ => none table inside entry member⟩

/-- Defining an alias keeps the names apart: the name is new, or it keeps its place. -/
theorem define_nodup {tables : List AliasTable} (apart : (names tables).Nodup) {target : Nat}
    (inside : target < tables.length) (entry : Alias) : (names (define tables target entry)).Nodup := by
  unfold define
  split
  · rw [modify_redefine_names]
    exact apart
  · rename_i unknown
    have new : Lacks tables entry.name :=
      lacks_iff.mpr (List.findIdx?_eq_none_iff.mp unknown)
    exact (modify_append_names entry inside).nodup_iff.mpr (List.nodup_cons.mpr ⟨new, apart⟩)

theorem remove_names (name : Text) (tables : List AliasTable) :
    (names (tables.map (remove · name))).Sublist (names tables) := by
  induction tables with
  | nil => exact .slnil
  | cons table rest ih =>
      simp only [List.map_cons, names_cons]
      exact (List.eraseP_sublist.map _).append ih

theorem remove_lacks {tables : List AliasTable} (apart : (names tables).Nodup) (name : Text) :
    Lacks (tables.map (remove · name)) name := by
  have one {table : AliasTable} (apart : (table.map (Text.lower ·.name)).Nodup) :
      Text.lower name ∉ (remove table name).map (Text.lower ·.name) := by
    induction table with
    | nil => exact List.not_mem_nil
    | cons entry rest ih =>
        rw [List.map_cons, List.nodup_cons] at apart
        by_cases answers : Text.lower entry.name = Text.lower name
        · rw [remove, List.eraseP_cons_of_pos (by simp [Alias.answers, answers]), ← answers]
          exact apart.1
        · rw [remove, List.eraseP_cons_of_neg (by simp [Alias.answers, answers]), List.map_cons, List.mem_cons, not_or]
          exact ⟨fun same => answers same.symm, ih apart.2⟩
  induction tables with
  | nil => exact List.not_mem_nil
  | cons table rest ih =>
      rw [names_cons] at apart
      rw [Lacks, List.map_cons, names_cons, List.mem_append, not_or]
      exact ⟨one apart.of_append_left, ih apart.of_append_right⟩

/-- Where the names are apart, the alias that a name has does not depend on the order. -/
theorem find?_perm {entries other : List Alias} (apart : (entries.map (Text.lower ·.name)).Nodup)
    (perm : other.Perm entries) (name : Text) :
    other.find? (Alias.answers name) = entries.find? (Alias.answers name) := by
  cases here : other.find? (Alias.answers name) with
  | none =>
      refine (List.find?_eq_none.mpr fun entry member => ?_).symm
      exact List.find?_eq_none.mp here entry (perm.mem_iff.mpr member)
  | some entry =>
      have answers : Text.lower entry.name = Text.lower name := by simpa [Alias.answers] using List.find?_some here
      have member : entry ∈ entries := perm.mem_iff.mp (List.mem_of_find?_eq_some here)
      cases there : entries.find? (Alias.answers name) with
      | none => exact absurd (List.find?_eq_none.mp there entry member) (by simp [Alias.answers, answers])
      | some same =>
          have answersToo : Text.lower same.name = Text.lower name := by
            simpa [Alias.answers] using List.find?_some there
          have one := List.inj_on_of_nodup_map apart member (List.mem_of_find?_eq_some there)
            (answers.trans answersToo.symm)
          rw [one]

theorem replacement_perm {tables other : List AliasTable} (apart : (names tables).Nodup) (perm : other.Perm tables)
    (word : Text) : replacement other word = replacement tables word := by
  have found (tables : List AliasTable) :
      tables.findSome? (find? · word) = tables.flatten.find? (Alias.answers word) := List.find?_flatten.symm
  unfold replacement
  rw [found, found, find?_perm apart perm.flatten]

theorem substitute_congr {tables other : List AliasTable}
    (same : ∀ word, replacement other word = replacement tables word)
    (word : Text) (pairs : List (CodePoint × CodePoint)) :
      substitute other word pairs = substitute tables word pairs := by
  induction pairs generalizing word with
  | nil => exact same word
  | cons pair rest ih =>
      obtain ⟨c, masked⟩ := pair
      unfold substitute
      split
      · rw [same, ih]
      · exact ih _

theorem apply_perm {tables other : List AliasTable} (apart : (names tables).Nodup) (perm : other.Perm tables)
    (line : Text) : apply other line = apply tables line := by
  have filled := perm.filter (· ≠ [])
  have known : (names (tables.filter (· ≠ []))).Nodup := by
    rw [names, List.flatten_filter_ne_nil]
    exact apart
  have empty : (other.filter (· ≠ [])).isEmpty = (tables.filter (· ≠ [])).isEmpty := by
    rw [Bool.eq_iff_iff, List.isEmpty_iff, List.isEmpty_iff, ← List.length_eq_zero_iff, ← List.length_eq_zero_iff,
      filled.length_eq]
  unfold apply
  dsimp only
  rw [empty, substitute_congr (replacement_perm known filled)]

end AliasTable

namespace Frame

/-- The names of the aliases of a frame and of its open loops differ, whatever their case. -/
def Unambiguous (frame : Frame) : Prop := (AliasTable.names frame.aliasTables).Nodup

instance (frame : Frame) : Decidable frame.Unambiguous := inferInstanceAs (Decidable (List.Nodup _))

theorem aliasTables_withAliasTables {frame : Frame} {tables : List AliasTable}
    (enough : tables.length = frame.loops.length + 1) : (frame.withAliasTables tables).aliasTables = tables := by
  obtain ⟨first, inner, rfl⟩ := List.exists_cons_of_length_eq_add_one enough
  have same : frame.loops.length = inner.reverse.length := by simpa using enough.symm
  have zipped {give : Loop × AliasTable → Loop} (given : ∀ pair, (give pair).aliases = pair.2) {loops : List Loop}
      {tables : List AliasTable} (same : loops.length = tables.length) :
      ((loops.zip tables).map give).map (·.aliases) = tables := by
    rw [List.map_map, show (·.aliases) ∘ give = Prod.snd from funext given]
    exact List.map_snd_zip (by omega)
  simp only [aliasTables, withAliasTables, List.drop_succ_cons, List.drop_zero, List.head?_cons, Option.getD_some,
    List.map_reverse]
  rw [zipped ?given same, List.reverse_reverse]
  case given => exact fun _ => rfl

theorem Change.unambiguous {floor : Nat} {before after : Frame} (change : before.Change floor after)
    (apart : before.Unambiguous) : after.Unambiguous := by
  have of_tables {after : Frame} (aliases : after.aliases = before.aliases)
      (loops : after.loops.map (·.aliases) = before.loops.map (·.aliases)) : after.Unambiguous := by
    rw [Unambiguous, aliasTables, aliases, List.map_reverse, loops, ← List.map_reverse]
    exact apart
  cases change with
  | mark loops aliases => exact of_tables aliases (by rw [loops])
  | define entry =>
      rw [Unambiguous, aliasTables_withAliasTables (before.define_length entry)]
      exact AliasTable.define_nodup apart (by rw [aliasTables_length]; omega) entry
  | remove name =>
      rw [Unambiguous, aliasTables_withAliasTables (before.remove_length name)]
      exact (AliasTable.remove_names name _).nodup apart
  | push loop bare =>
      have tables : ({ before with loops := loop :: before.loops } : Frame).aliasTables =
          before.aliasTables ++ [[]] := by
        simp [aliasTables, bare]
      have names : AliasTable.names (before.aliasTables ++ [[]]) = AliasTable.names before.aliasTables := by
        simp [AliasTable.names]
      rw [Unambiguous, tables, names]
      exact apart
  | turn f _ aliases =>
      refine of_tables rfl ?_
      simp only [modifyLoop]
      cases before.loops with
      | nil => rfl
      | cons first rest => simp [aliases]
  | advance _ source =>
      refine of_tables rfl (modifyLoopAt_view ?_ before _)
      exact fun _ => rfl
  | pop above =>
      obtain ⟨innermost, outer, stack⟩ := List.exists_cons_of_length_pos (Nat.zero_lt_of_lt above)
      have more : before.aliasTables =
          ({ before with loops := before.loops.drop 1 } : Frame).aliasTables ++ [innermost.aliases] := by
        simp [aliasTables, stack]
      rw [Unambiguous, more, AliasTable.names, List.flatten_append, List.map_append] at apart
      exact apart.of_append_left

end Frame

def Session.Unambiguous {σ : Type} (session : Session σ) : Prop :=
  ∀ frame ∈ session.frame :: session.callers, frame.Unambiguous

instance {σ : Type} (session : Session σ) : Decidable session.Unambiguous :=
  inferInstanceAs (Decidable (∀ frame ∈ session.frame :: session.callers, frame.Unambiguous))

end CommandScript
