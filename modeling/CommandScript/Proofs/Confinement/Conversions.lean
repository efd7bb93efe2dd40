import CommandScript.Proofs.Confinement.Basic

/-! Conversions between integers, doubles, times and texts, and the faults by which they fail. -/

namespace CommandScript

variable {α β : Type}

def Converts (result : Except Fault α) : Prop := ∀ fault, result = .error fault → fault.isConversion = true

namespace Converts

theorem ok (value : α) : Converts (.ok value) := nofun

theorem error {fault : Fault} (known : fault.isConversion = true) : Converts (.error fault : Except Fault α) := by
  rintro _ ⟨⟩
  exact known

theorem bind {first : Except Fault α} {next : α → Except Fault β} (converts : Converts first)
    (goesOn : ∀ value, Converts (next value)) : Converts (first >>= next) := by
  cases first with
  | ok value => exact goesOn value
  | error fault => exact error (converts fault rfl)

end Converts

namespace Number

theorem parseInt_converts (text : Text) : Converts (parseInt text) := by
  unfold parseInt
  dsimp only
  split
  · exact .ok _
  · split
    · exact .error rfl
    · exact .ok _

theorem integerText_converts (n : Int) : Converts (integerText n) := by
  unfold integerText
  split
  · exact .ok _
  · exact .error rfl

theorem truncate_converts (x : Float) : Converts (truncate x) := by
  unfold truncate
  split
  · exact .error rfl
  · exact .error rfl
  · exact .ok _

theorem roundToInt_converts (x : Float) : Converts (roundToInt x) := by
  unfold roundToInt
  split
  · exact .error rfl
  · exact .error rfl
  · exact .ok _

end Number

namespace Time

theorem parseTime_converts (text : Text) : Converts (parseTime text) := by
  unfold parseTime
  split
  · exact .ok _
  · split
    · exact .error rfl
    · exact .ok _

theorem formatTime_converts (style : Style) (seconds : Float) : Converts (formatTime style seconds) := by
  refine (Number.roundToInt_converts _).bind fun ticks => ?_
  unfold formatTicks
  split
  · exact .error rfl
  · exact .ok _

end Time

theorem parseDouble_converts (text : Text) : Converts (parseDouble text) := by
  unfold parseDouble
  dsimp only
  split
  · exact .ok _
  · split
    · exact .ok _
    · exact Time.parseTime_converts _

namespace Value

theorem render_converts (value : Value) : Converts value.render := by
  cases value with
  | int n => exact Number.integerText_converts n
  | _ => exact .ok _

theorem classify_converts (text : Text) : Converts (classify text) := by
  have whole := Number.parseInt_converts text
  unfold classify
  split
  · rename_i fault failed
    exact .error (whole fault failed)
  · exact .ok _
  · split
    · split
      · exact .error rfl
      · exact .ok _
    · exact .ok _

theorem renderAll_converts (values : List Value) : Converts (values.mapM render) := by
  induction values with
  | nil => exact .ok _
  | cons value rest ih =>
      rw [List.mapM_cons]
      exact (render_converts value).bind fun _ => ih.bind fun _ => .ok _

end Value

theorem Outcome.toValue_converts (outcome : Outcome) : Converts outcome.toValue := by
  unfold toValue
  split
  · exact .ok _
  · exact .ok _
  · exact .ok _
  · exact Value.classify_converts _

theorem encodeWhole_converts (text : Text) : Converts (encodeWhole text) := by
  unfold encodeWhole
  split
  · exact .ok _
  · exact .error rfl

theorem Store.get?_fault {store : Store} {name : Text} {fault : Fault}
    (failed : store.get? name = .error (.fault fault)) : fault.isConversion = true := by
  have index (array text : Text) (broken : element array text name = .error (.fault fault)) :
      fault.isConversion = true := by
    unfold element at broken
    split at broken
    · rename_i found failed
      cases broken
      exact Number.parseInt_converts _ _ failed
    · cases broken
    · split at broken <;> cases broken
  unfold get? at failed
  split at failed
  · cases failed
  · split at failed
    · cases failed
    · split at failed
      · cases failed
      · split at failed
        · cases failed
        · rename_i array _
          cases broken : element array (Text.trim _) name with
          | ok value =>
              rw [broken] at failed
              cases failed
          | error failure =>
              rw [broken] at failed
              cases failed
              exact index _ _ broken

end CommandScript
