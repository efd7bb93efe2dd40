import CommandScript.Proofs.Passes.Arrays
import CommandScript.Proofs.Passes.Elements
import CommandScript.Proofs.Passes.Fields

/-! Arrays decode to what was encoded. The size of an array, its elements under any integer expression and the
passes of a loop over it are those of the fields that its text was made of. -/

namespace CommandScript

variable {σ : Type}

namespace LoopHeader

def overName (name : Text) : Text := "foreach(" ++ name ++ ")"

theorem argumentPieces_plain {s : Text} (plain : ∀ c ∈ s, Text.Uncounted c ∧ c ≠ ',') :
    argumentPieces 0 (s.map .plain) = .ok [s] := by
  induction s with
  | nil => rfl
  | cons c rest ih =>
      obtain ⟨⟨noOpen, noClose, noLeft, noRight⟩, noComma⟩ := plain c (by simp)
      have inner := ih fun other member => plain other (by simp [member])
      simp [argumentPieces, noOpen, noClose, noLeft, noRight, noComma, inner, Except.map, Text.prepend]

theorem parse_overName {name : Text} (valid : isValidName name = true) :
    parse (overName name) = .ok (.list name none) := by
  have dotted := isValidName_dotted valid
  have neutral (c : CodePoint) (member : c ∈ name) := Text.dotted_neutral (dotted c member)
  have plain (c : CodePoint) (member : c ∈ name) : Text.Uncounted c ∧ c ≠ ',' := by
    refine ⟨(neutral c member).2.2.2, fun comma => ?_⟩
    have noOperator := (neutral c member).2.1
    rw [comma] at noOperator
    cases noOperator
  have opening : Text.cut? '(' (overName name) = some (("foreach" : Text), name ++ ([')'] : Text)) := by
    have whole : overName name = ("foreach" : Text) ++ .char '(' :: (name ++ ([')'] : Text)) := by
      show (("foreach(" : Text) ++ name) ++ ([')'] : Text) = _
      rw [List.append_assoc]
      rfl
    have other : .char '(' ∉ ("foreach" : Text) := by decide
    rw [whole]
    exact Text.cut?_word fun c member same => other (same ▸ member)
  have closing : Text.cutLast? ')' (name ++ ([')'] : Text)) = some (name, []) := by
    simp [Text.cutLast?, Text.cut?]
  have args : splitArguments (Text.trim name) = .ok [name] := by
    rw [(isValidName_plain valid).trimmed, splitArguments, Span.scan_unquoted fun c member => (neutral c member).2.2.1,
      argumentPieces_plain plain]
    simp [Except.map, (isValidName_plain valid).trimmed]
  obtain ⟨c, rest, same⟩ := List.exists_cons_of_ne_nil (isValidName_filled valid)
  have first : Text.trimLeft (name ++ ([')'] : Text)) = c :: (rest ++ ([')'] : Text)) := by
    rw [same, List.cons_append, Text.trimLeft, List.dropWhile_cons_of_neg]
    simp [(neutral c (by simp [same])).1]
  have point : c ≠ '.' := by
    rintro rfl
    have named : Text.isNameChar '.' = true :=
      List.all_eq_true.mp (Bool.and_eq_true_iff.mp valid).2 '.' (by simp [same])
    exact absurd named (by decide)
  have comma : c ≠ ',' := (plain c (by simp [same])).2
  simp [parse, opening, first, point, comma, closing, args, ofArguments]

end LoopHeader

namespace Interpreter

/-- An element of an array is a field if its index comes to a position of one, however the index is written. -/
theorem valueOf_field (env : Env σ) {session after : Session σ} {name index : Text} {fields : List Text}
    {e : Expr} {i : Int}
    (valid : isValidName name = true) (allowed : ∀ field ∈ fields, Text.IsField field)
    (stored : session.store.lookup name = some (Text.ofFields fields)) (parsed : Expr.parse index = .ok e)
    (brackets : index.UnquotedBrackets) (evaluated : Expr.eval env false e session = .ok (.int i) after)
    (space : session.depth + (Expr.element name e).callsNeeded ≤ Run.callLimit)
    (small : i.natAbs < Number.integerLimit) :
    (∀ position (inside : position < fields.length), i = position + 1 →
      Expr.valueOf env (Text.reference name index) session = Run.ofFault (Value.classify fields[position]) after) ∧
    (i < 1 ∨ fields.length < i → ∃ error : ScriptError,
      Expr.valueOf env (Text.reference name index) session = .error (.error error) after ∧
        error.kind = .arrayIndex) := by
  -- the index may ask the host, but it leaves the array alone
  have kept : after.store.lookup name = some (Text.ofFields fields) := Expr.eval_store evaluated ▸ stored
  have read := @Expr.evalElement_int σ env after name _ (isValidName_plain valid) kept i small
  rw [Expr.valueOf_reference valid parsed brackets evaluated space]
  rw [Text.splitArray_ofFields allowed] at read
  refine ⟨?_, ?_⟩
  · rintro position inside rfl
    rw [read, if_pos (by omega), show ((position : Int) + 1 - 1).toNat = position by omega,
      List.getElem?_eq_getElem inside]
  · intro outside
    have absent : (if 1 ≤ i then fields[(i - 1).toNat]? else none) = none := by
      split
      · exact List.getElem?_eq_none (by omega)
      · rfl
    rw [absent] at read
    exact ⟨_, read, rfl⟩

/-- An array decodes to the fields that its text was made of. Its size is their number. An element is a field if
the index comes to a position of one, however the index is written, and there is no such element otherwise;
brackets in the index may not stand in quotes, where they would count as those around it, and an index of too
many digits cannot be written between brackets. A loop over the array has a pass for each field, which is bound
as the pass is due and is read under the name, unless the pass before has made the name global beside a local
variable, and is read in the body too, unless the name is that of the number of the pass. -/
theorem array_decodes (env : Env σ) (depth : Nat) {session : Session σ} {name : Text} {fields : List Text}
    (valid : isValidName name = true) (allowed : ∀ field ∈ fields, Text.IsField field)
    (stored : session.store.lookup name = some (Text.ofFields fields)) (single : session.store.Sees name)
    (unbound : session.buffer? name = none) (room : session.depth + 11 ≤ Run.callLimit) :
    Expr.valueOf env (Text.sizeCall name) session = .ok (.int fields.length) session ∧
      (∀ (index : Text) (e : Expr) (i : Int) (after : Session σ), Expr.parse index = .ok e → index.UnquotedBrackets →
        Expr.eval env false e session = .ok (.int i) after →
        session.depth + (Expr.element name e).callsNeeded ≤ Run.callLimit →
          (i.natAbs < Number.integerLimit →
            (∀ position (inside : position < fields.length), i = position + 1 →
              Expr.valueOf env (Text.reference name index) session =
                Run.ofFault (Value.classify fields[position]) after) ∧
            (i < 1 ∨ fields.length < i → ∃ error : ScriptError,
              Expr.valueOf env (Text.reference name index) session = .error (.error error) after ∧
                error.kind = .arrayIndex)) ∧
          (Number.integerLimit ≤ i.natAbs →
            Expr.valueOf env (Text.reference name index) session = .error (.fault .digits) after)) ∧
      ∃ opened, startLoop env (LoopHeader.overName name) session = .ok () opened ∧
        ∀ (ready : Session σ) (last : Text), Reads env (execLine env depth) opened ready →
          (ready.frame.blocks.track last).2 = .ok true → ∃ loop outer, ready.frame.loops = loop :: outer ∧
            let passes := passesAfter env depth last ready loop outer
            loop.source.count = fields.length ∧
              ((∀ index < fields.length, passes.Completes index) →
                ∃ after, collect env (execLine env depth) last ready = .ok () after) ∧
              ∀ index (inside : index < fields.length),
                (passes.due index).store = (passes.prior session.store index).set name fields[index] ∧
                  ((0 < index → (passes.prior session.store index).Sees name) →
                    (passes.due index).store.lookup name = some fields[index] ∧
                      (name ≠ "for_index" → (passes.begun index).store.lookup name = some fields[index])) := by
  have array := Text.splitArray_ofFields allowed
  refine ⟨array ▸ Expr.valueOf_sizeCall valid unbound stored room, ?_, ?_⟩
  · intro index e i after parsed brackets evaluated space
    refine ⟨valueOf_field env valid allowed stored parsed brackets evaluated space, fun large => ?_⟩
    rw [Expr.valueOf_reference valid parsed brackets evaluated space]
    exact Expr.evalElement_digits large
  · have parsed := LoopHeader.parse_overName valid
    have holds := ((isValidName_plain valid).get? session.store).trans (congrArg _ stored)
    obtain ⟨opened, opens, loops⟩ := startLoop_list env depth parsed holds
    rw [Text.listFields_ofFields allowed] at loops
    refine ⟨opened, opens, fun ready last reads ends => ?_⟩
    obtain ⟨loop, outer, stack, rfl, source, bound, completed⟩ := loops ready last reads ends
    let passes := passesAfter env depth last ready loop outer
    have count : loop.source.count = fields.length := by rw [source]; rfl
    refine ⟨loop, outer, stack, count, fun completes => ?_, fun index inside => ?_⟩
    · obtain ⟨after, ended, -⟩ := completed completes
      exact ⟨after, ended⟩
    have starts : passes.start.store = session.store.set passes.loop.name (passes.loop.source.element 0) := by
      rw [LoopSource.bound, if_pos (by omega)] at bound
      exact bound
    have element : passes.loop.source.element index = fields[index] :=
      (congrArg (LoopSource.element index) source).trans (LoopSource.element_list inside)
    exact element ▸ LoopPasses.binds starts single index

/-- An array of two fields: its size, an element whose index is computed, one that does not exist, and the second of the
passes over it. -/
theorem pair_decodes :
    let env : Env Unit := {}
    let session := (Session.start {} ()).put "a" (Text.ofFields ["x", "y"])
    let opened := (startLoop env "foreach(a)").leaves session
    let ready := (collect env (execLine env 2) "print a").leaves opened
    Expr.valueOf env "a.size()" session = .ok (.int 2) session ∧
      Expr.valueOf env "a[3-1]" session = .ok (.text "y") session ∧
      (∃ error : ScriptError, Expr.valueOf env "a[1-2]" session = .error (.error error) session ∧
        error.kind = .arrayIndex) ∧
      ∃ loop outer after, ready.frame.loops = loop :: outer ∧
        collect env (execLine env 2) "endfor" ready = .ok () after ∧
        ((passesAfter env 2 "endfor" ready loop outer).begun 1).store.lookup "a" = some ("y" : Text) := by
  intro env session opened ready
  have allowed : ∀ field ∈ (["x", "y"] : List Text), Text.IsField field := by
    intro field member
    rcases List.mem_pair.mp member with rfl | rfl <;> exact ⟨by decide, by decide, by decide, by decide⟩
  obtain ⟨size, elements, ⟨reached, opens, passes⟩⟩ :=
    @array_decodes Unit env 2 session "a" ["x", "y"] (by decide) allowed (by decide +kernel)
      ⟨by decide +kernel, by decide +kernel⟩ (by decide +kernel) (by decide +kernel)
  have second : Expr.parse "3-1" = .ok (.binary (.arithmetic .sub) (.term "3") (.term "1")) := by cbv
  have negative : Expr.parse "1-2" = .ok (.binary (.arithmetic .sub) (.term "1") (.term "2")) := by cbv
  have inside := ((elements _ _ 2 session second (by decide +kernel) rfl (by decide +kernel)).1 (by decide +kernel)).1 1
    (by decide) rfl
  have outside :=
    ((elements _ _ (-1) session negative (by decide +kernel) rfl (by decide +kernel)).1 (by decide +kernel)).2
    (.inl (by decide))
  have known : opened = reached := congrArg (fun result => Run.leaves (fun _ => result) session) opens
  have read : Reads env (execLine env 2) reached ready := known ▸ .line "print a" .opened (by decide +kernel)
  obtain ⟨loop, outer, stack, _, completed, binds⟩ := passes ready "endfor" read (by decide +kernel)
  have top : ready.frame.loops =
      [{ name := "a", source := .list ["x", "y"] 1 "\"x,y\"", mode := .reading, lines := [⟨"print a", 0⟩] }] := by
    decide +kernel
  obtain ⟨rfl, rfl⟩ := List.cons.inj (stack.symm.trans top)
  obtain ⟨after, ended⟩ := completed fun index (inside : index < 2) => by
    obtain rfl | rfl : index = 0 ∨ index = 1 := by omega
    · exact ⟨by decide +kernel, Run.ends_ok (by decide +kernel), by decide +kernel⟩
    · exact ⟨by decide +kernel, Run.ends_ok (by decide +kernel), by decide +kernel⟩
  have bound := ((binds 1 (by decide)).2 fun _ => ⟨by decide +kernel, by decide +kernel⟩).2 (by decide)
  exact ⟨size, inside, outside, _, _, after, stack, ended, bound⟩

end Interpreter

end CommandScript
