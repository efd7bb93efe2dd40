import CommandScript.Proofs.Respect.Basic

/-! Evaluation respects every relation that agrees on the variables, the buffers, the write file and the
host: this holds for the functions of the language, for expressions and conditions, for the items of a
print command and for the words of a command's arguments. -/

namespace CommandScript

variable {σ : Type} {R : Session σ → Session σ → Prop}

open Run

theorem Evaluable.buffer? (evaluable : Evaluable R) {left right : Session σ} (related : R left right)
    (name : Text) : left.buffer? name = right.buffer? name := by
  simp only [Session.buffer?, evaluable.buffers related]

namespace Builtin

@[grind ←] theorem refuse_respects {α : Type} (f : Builtin) (error : ArgumentError) :
    Respects R (f.refuse error : Run σ α) := Respects.fail _

@[grind ←] theorem number_respects (f : Builtin) (error : ArgumentError) (value : Value) :
    Respects R (f.number error value : Run σ Float) := by
  cases value <;> grind [number]

@[grind ←] theorem integer_respects (f : Builtin) (error : ArgumentError) (value : Value) :
    Respects R (f.integer error value : Run σ Int) := by
  cases value <;> grind [integer]

@[grind ←] theorem checkMath_respects {α : Type} (f : Builtin) (result : Except ArgumentError α) :
    Respects R (f.checkMath result : Run σ α) := by
  cases result <;> grind [checkMath]

@[grind ←] theorem resolve_respects (evaluable : Evaluable R) (env : Env σ) (name : Text) :
    Respects R (resolve env name) := Respects.askOr evaluable _ _

@[grind ←] theorem isDefined_respects (evaluable : Evaluable R) (env : Env σ) (name : Text) :
    Respects R (isDefined env name) := by
  have found : Respects R (do
      if ((← get).buffer? name).isSome then return true
      return (← resolve env name).ok : Run σ Bool) := by
    refine Respects.read (fun left right related => ?_) fun session => ?_
    · rw [evaluable.buffer? related]
    · grind
  unfold isDefined
  grind

@[grind ←] theorem runSubstr_respects (f : Builtin) (text : Text) (start count : Value) :
    Respects R (f.runSubstr text start count : Run σ Value) := by
  unfold runSubstr
  grind

theorem guard_respects {α : Type} (f : Builtin) (refused : Prop) [Decidable refused] (error : ArgumentError)
    {next : Run σ α} (goesOn : Respects R next) :
    Respects R (if refused then (do let _ ← (f.refuse error : Run σ PUnit); next) else next) := by
  split
  · exact Respects.bind (refuse_respects f error) fun _ => goesOn
  · exact goesOn

@[grind ←] theorem maxabsWindow_respects (f : Builtin) (size : Nat) (args : List Value) :
    Respects R (f.maxabsWindow size args : Run σ (Int × Int)) := by
  unfold maxabsWindow
  extract_lets start stop given
  have windowEnd (start : Int) : Respects R (given () start) := by
    have last (start stop : Int) : Respects R (do
        if size = 0 then f.refuse .startHigh
        return (start, stop) : Run σ (Int × Int)) := guard_respects f _ _ (Respects.pure _)
    dsimp only [given]
    cases args[1]? with
    | none => exact last start stop
    | some value =>
        refine Respects.bind (integer_respects f _ _) fun n => ?_
        exact guard_respects f _ _ (guard_respects f _ _ (last start (n - 1)))
  cases args[0]? with
  | none => exact windowEnd start
  | some value =>
      refine Respects.bind (integer_respects f _ _) fun n => ?_
      exact guard_respects f _ _ (guard_respects f _ _ (windowEnd (n - 1)))

@[grind ←] theorem runMaxabs_respects (f : Builtin) (args : List Value) :
    Respects R (f.runMaxabs args : Run σ Value) := by
  cases args with
  | nil => exact refuse_respects f _
  | cons first rest =>
      refine guard_respects f _ _ ?_
      cases first <;> grind

@[grind ←] theorem expectWriteFile_respects (evaluable : Evaluable R) (f : Builtin) :
    Respects R (f.expectWriteFile : Run σ Unit) := by
  refine Respects.read (fun left right related => by rw [evaluable.writeFile related]) fun session => ?_
  exact guard_respects f _ _ (Respects.pure _)

@[grind ←] theorem writtenValue_respects (evaluable : Evaluable R) (f : Builtin) (args : List Value) :
    Respects R (f.writtenValue args : Run σ Value) := by
  unfold writtenValue
  grind

@[grind ←] theorem writeInteger_respects (evaluable : Evaluable R) (f : Builtin) (width : Nat)
    (args : List Value) : Respects R (f.writeInteger width args : Run σ Value) := by
  refine Respects.bind (writtenValue_respects evaluable f args) fun value => ?_
  refine Respects.bind (integer_respects f _ _) fun n => guard_respects f _ _ ?_
  exact Respects.bind (Respects.writeBytes evaluable _) fun _ => Respects.pure _

@[grind ←] theorem writeReal_respects (evaluable : Evaluable R) (f : Builtin) (encode : Float → List UInt8)
    (args : List Value) : Respects R (f.writeReal encode args : Run σ Value) := by
  refine Respects.bind (writtenValue_respects evaluable f args) fun value => ?_
  refine Respects.bind (number_respects f _ _) fun x => ?_
  exact Respects.bind (Respects.writeBytes evaluable _) fun _ => Respects.pure _

@[grind ←] theorem refuseNumber_respects {α : Type} (f : Builtin) (n : Int) (error : ArgumentError) :
    Respects R (f.refuseNumber n error : Run σ α) := by
  unfold refuseNumber
  grind

@[grind ←] theorem arrayWindow_respects (f : Builtin) (size : Nat) (start count : Value) :
    Respects R (f.arrayWindow size start count : Run σ (Nat × Nat)) := by
  have checked {refused : Prop} [Decidable refused] (n : Int) (error : ArgumentError)
      {next : Run σ (Nat × Nat)} (goesOn : Respects R next) :
      Respects R (if refused then (do let _ ← (f.refuseNumber n error : Run σ PUnit); next) else next) := by
    split
    · exact Respects.bind (refuseNumber_respects f n error) fun _ => goesOn
    · exact goesOn
  refine Respects.bind (integer_respects f _ _) fun first => checked _ _ (checked _ _ ?_)
  exact Respects.bind (integer_respects f _ _) fun length => checked _ _ (checked _ _ (Respects.pure _))

@[grind ←] theorem runWriteArray_respects (evaluable : Evaluable R) (f : Builtin) (args : List Value) :
    Respects R (f.runWriteArray args : Run σ Value) := by
  refine Respects.bind (expectWriteFile_respects evaluable f) fun _ => ?_
  extract_lets written
  have writes (given : Value × Option (Value × Value)) : Respects R (written given) := by
    obtain ⟨first, window⟩ := given
    cases first with
    | buffer buffer =>
        have last (place : Nat × Nat) : Respects R (do
            modify (·.writeBytes (buffer.bytes place.1 place.2).2)
            return .int (buffer.bytes place.1 place.2).1 : Run σ Value) :=
          Respects.bind (Respects.writeBytes evaluable _) fun _ => Respects.pure _
        cases window with
        | none => exact Respects.bind (Respects.pure _) last
        | some range => exact Respects.bind (arrayWindow_respects f _ range.1 range.2) last
    | int n => exact refuse_respects f _
    | real x => exact refuse_respects f _
    | text s => exact refuse_respects f _
  split
  · exact Respects.bind (Respects.pure _) writes
  · exact Respects.bind (Respects.pure _) writes
  · exact Respects.bind (refuse_respects f _) writes

@[grind ←] theorem run_respects (evaluable : Evaluable R) (env : Env σ) (f : Builtin) (args : List Value) :
    Respects R (f.run env args) := by
  unfold run
  split <;> try grind
  -- only `writeString` is left: it changes the session by itself
  refine Respects.bind (writtenValue_respects evaluable _ _) fun value => ?_
  split
  · refine Respects.bind (Respects.ofFault _) fun bytes => ?_
    exact Respects.bind (Respects.writeBytes evaluable _) fun _ => Respects.pure _
  · exact refuse_respects _ _

@[grind ←] theorem sizeOf?_respects (evaluable : Evaluable R) (name : Text) :
    Respects R (sizeOf? name : Run σ (Option Int)) := by
  refine Respects.read (fun left right related => by rw [evaluable.buffer? related]) fun session => ?_
  split
  · exact Respects.pure _
  refine Respects.bind (Respects.readVariable evaluable name) fun stored => ?_
  split <;> exact Respects.pure _

@[grind ←] theorem callHost_respects (evaluable : Evaluable R) (env : Env σ) (name : Text)
    (args : List Value) : Respects R (callHost env name args) := by
  unfold callHost
  grind

@[grind ←] theorem invoke_respects (evaluable : Evaluable R) (env : Env σ) (name : Text)
    (args : List Value) : Respects R (invoke env name args) := by
  unfold invoke
  split
  · grind
  · split
    · refine Respects.bind (sizeOf?_respects evaluable _) fun size => ?_
      split
      · exact Respects.pure _
      · exact callHost_respects evaluable env name args
    · exact callHost_respects evaluable env name args

end Builtin

namespace Expr

@[grind ←] theorem asDouble_respects (value : Value) : Respects R (asDouble value : Run σ Float) := by
  cases value <;> grind [asDouble]

@[grind ←] theorem onInts_respects (op : Arithmetic) (a b : Int) :
    Respects R (onInts op a b : Run σ Value) := by
  cases op <;> grind [onInts]

@[grind ←] theorem onDoubles_respects (op : Arithmetic) (x y : Float) :
    Respects R (onDoubles op x y : Run σ Value) := by
  cases op <;> grind [onDoubles]

@[grind ←] theorem arithmetic_respects (op : Arithmetic) (left right : Value) :
    Respects R (arithmetic op left right : Run σ Value) := by
  refine Respects.guard _ _ (Respects.guard _ _ ?_)
  split <;> grind

@[grind ←] theorem compare_respects (op : Comparison) (left right : Value) :
    Respects R (compare op left right : Run σ Value) := by
  unfold compare
  grind

@[grind ←] theorem connected_respects (op : Connective) (value : Value) :
    Respects R (connected op value : Run σ Bool) := by
  unfold connected
  grind

@[grind ←] theorem combine_respects (op : BinaryOp) (left right : Value) :
    Respects R (combine op left right : Run σ Value) := by
  cases op <;> grind [combine]

@[grind ←] theorem negated_respects (value : Value) : Respects R (negated value : Run σ Value) := by
  cases value <;> grind [negated]

@[grind ←] theorem inverted_respects (value : Value) : Respects R (inverted value : Run σ Value) := by
  unfold inverted
  grind

@[grind ←] theorem external_respects (evaluable : Evaluable R) (env : Env σ) (name : Text) :
    Respects R (external env name) := by
  refine Respects.bind (Builtin.resolve_respects evaluable env name) fun outcome => ?_
  exact Respects.guard _ _ (Respects.guard _ _ (Respects.ofFault _))

@[grind ←] theorem evalTerm_respects (evaluable : Evaluable R) (env : Env σ) (text : Text) :
    Respects R (evalTerm env text) := by
  unfold evalTerm
  dsimp only
  split
  · exact Respects.pure _
  refine Respects.bind (Respects.ofFault _) fun whole => ?_
  split
  · exact Respects.pure _
  refine Respects.bind (Respects.ofFault _) fun real => ?_
  split
  · exact Respects.pure _
  refine Respects.bind (Respects.readVariable evaluable text) fun stored => ?_
  split
  · exact Respects.ofFault _
  refine Respects.read (fun left right related => by rw [evaluable.buffer? related]) fun session => ?_
  split
  · exact Respects.pure _
  · exact external_respects evaluable env text

@[grind ←] theorem evalElement_respects (evaluable : Evaluable R) (env : Env σ) (name : Text) (index : Value) :
    Respects R (evalElement env name index) := by
  cases index with
  | int n =>
      refine Respects.bind (Respects.ofFault _) fun digits => ?_
      refine Respects.bind (Respects.readVariable evaluable _) fun stored => ?_
      split
      · exact Respects.ofFault _
      · exact external_respects evaluable env _
  | real x => exact Respects.fail _
  | text s => exact Respects.fail _
  | buffer b => exact Respects.fail _

mutual

@[grind ←] theorem eval_respects (evaluable : Evaluable R) (env : Env σ) (logical : Bool) (e : Expr) :
    Respects R (eval env logical e) := by
  cases e with
  | term text => exact evalTerm_respects evaluable env text
  | element name index =>
      exact Respects.bind (eval_respects evaluable env false index) fun value =>
        evalElement_respects evaluable env name value
  | quoted text inCall =>
      unfold eval
      grind
  | group bare inner => exact eval_respects evaluable env logical inner
  | call name args =>
      unfold eval
      split
      · exact Builtin.invoke_respects evaluable env name _
      · exact Respects.bind (evalAll_respects evaluable env logical args) fun values =>
          Builtin.invoke_respects evaluable env name values
  | negate operand =>
      exact Respects.bind (eval_respects evaluable env logical operand) negated_respects
  | invert operand =>
      exact Respects.bind (eval_respects evaluable env logical operand) inverted_respects
  | binary op left right =>
      refine Respects.bind (eval_respects evaluable env logical left) fun a => ?_
      exact Respects.bind (eval_respects evaluable env logical right) fun b => combine_respects op a b

theorem evalAll_respects (evaluable : Evaluable R) (env : Env σ) (logical : Bool) (args : List Expr) :
    Respects R (evalAll env logical args) := by
  cases args with
  | nil => exact Respects.pure _
  | cons e rest =>
      refine Respects.bind (eval_respects evaluable env logical e) fun value => ?_
      exact Respects.bind (evalAll_respects evaluable env logical rest) fun _ => Respects.pure _

end

@[grind ←] theorem read_respects (evaluable : Evaluable R) (text : Text) :
    Respects R (read text : Run σ Expr) := by
  unfold read
  grind

@[grind ←] theorem valueOf_respects (evaluable : Evaluable R) (env : Env σ) (text : Text) :
    Respects R (valueOf env text) := by
  unfold valueOf
  dsimp only
  split
  · exact Respects.pure _
  split
  · exact Respects.pure _
  · exact Respects.bind (read_respects evaluable _) fun e => eval_respects evaluable env false e

@[grind ←] theorem truthOfValue_respects (value : Value) (text : Text) :
    Respects R (truthOfValue value text : Run σ Bool) := by
  unfold truthOfValue
  grind

@[grind ←] theorem condition_respects (evaluable : Evaluable R) (env : Env σ) (text : Text) :
    Respects R (condition env text) := by
  unfold condition
  grind

@[grind ←] theorem evaluate_respects (evaluable : Evaluable R) (env : Env σ) (text : Text) (logical : Bool) :
    Respects R (evaluate env text logical) := by
  unfold evaluate
  grind

end Expr

namespace PrintStyle

@[grind ←] theorem valueText_respects (evaluable : Evaluable R) (env : Env σ) (style : PrintStyle)
    (expression : Text) : Respects R (style.valueText env expression) := by
  refine Respects.bind (Expr.evaluate_respects evaluable env expression false) fun outcome => ?_
  exact Respects.guard _ _ (Respects.guard _ _ (Respects.pure _))

@[grind ←] theorem itemText_respects (evaluable : Evaluable R) (env : Env σ) (style : PrintStyle)
    (item : PrintItem) : Respects R (style.itemText env item) := by
  cases item with
  | literal body => exact Respects.pure _
  | group expression =>
      exact Respects.bind (valueText_respects evaluable env style expression) fun _ => Respects.pure _
  | word expression format =>
      refine Respects.bind (valueText_respects evaluable env style expression) fun value => ?_
      cases format with
      | none => exact Respects.pure _
      | some format =>
          dsimp only
          split
          · exact Respects.pure _
          · exact Respects.bind (Respects.ofExcept _ _) fun _ => Respects.pure _
  | broken error => exact Respects.fail _

@[grind ←] theorem itemsText_respects (evaluable : Evaluable R) (env : Env σ) (style : PrintStyle)
    (items : List PrintItem) : Respects R (style.itemsText env items) := by
  induction items with
  | nil => exact Respects.pure _
  | cons item rest ih =>
      refine Respects.bind (itemText_respects evaluable env style item) fun text => ?_
      exact Respects.bind ih fun _ => Respects.pure _

@[grind ←] theorem render_respects (evaluable : Evaluable R) (env : Env σ) (style : PrintStyle)
    (text : Text) : Respects R (style.render env text) :=
  Respects.bind (itemsText_respects evaluable env style _) fun _ => Respects.pure _

end PrintStyle

theorem Piece.texts_respects {replace : Text → Run σ Text} (replaced : ∀ word, Respects R (replace word))
    (pieces : List Piece) : Respects R (Piece.texts replace pieces) := by
  induction pieces with
  | nil => exact Respects.pure _
  | cons piece rest ih =>
      cases piece with
      | verbatim text => exact Respects.bind ih fun _ => Respects.pure _
      | word text => exact Respects.bind (replaced text) fun _ => Respects.bind ih fun _ => Respects.pure _

namespace Words

@[grind ←] theorem storedWord_respects (evaluable : Evaluable R) (env : Env σ) (command word : Text) :
    Respects R (storedWord env command word) := by
  unfold storedWord
  split
  · exact Respects.pure _
  refine Respects.bind (Respects.ofFault _) fun real => ?_
  split
  · exact Respects.pure _
  refine Respects.bind (Expr.evaluate_respects evaluable env word false) fun outcome => ?_
  exact Respects.guard _ _ (Respects.guard _ _ (Respects.pure _))

@[grind ←] theorem concatenate_respects (evaluable : Evaluable R) (env : Env σ) (command text : Text) :
    Respects R (concatenate env command text) :=
  Piece.texts_respects (storedWord_respects evaluable env command) _

@[grind ←] theorem argumentWord_respects (evaluable : Evaluable R) (env : Env σ) (word : Text) :
    Respects R (argumentWord env word) := by
  unfold argumentWord
  dsimp only
  split
  · exact Respects.pure _
  refine Respects.bind (Respects.ofFault _) fun real => ?_
  split
  · exact Respects.pure _
  refine Respects.onError ?_ fun error => ?_
  · exact Respects.bind (Expr.valueOf_respects evaluable env word) fun _ => Respects.ofFault _
  · split
    · exact Respects.pure _
    · exact Respects.throw _

@[grind ←] theorem substitute_respects (evaluable : Evaluable R) (env : Env σ) (text : Text) :
    Respects R (substitute env text) :=
  Piece.texts_respects (argumentWord_respects evaluable env) _

end Words

end CommandScript
