import CommandScript.Proofs.Integers.Running
import CommandScript.Proofs.Output.Encodings
import CommandScript.Proofs.Output.Handles
import CommandScript.Proofs.Scoping.Bindings
import CommandScript.Proofs.Structured.Passing

/-! Statements that write. A statement that calls one of the writing functions evaluates the arguments and then adds the
bytes of their values to the write file, or fails and adds nothing. -/

namespace CommandScript

variable {σ : Type}

def Session.Asked (before after : Session σ) : Prop := ∃ host, after = { before with host }

instance (env : Env σ) (before : Session σ) : env.Insulates before.Asked where
  answers := by
    rintro session host ⟨_, rfl⟩ -
    exact ⟨host, rfl⟩

namespace Expr

/-- No part of the expression is a call. Literals and variables have no parts. -/
def callFree : Expr → Bool
  | term _ | quoted _ _ => true
  | call _ _ => false
  | element _ inner | group _ inner | negate inner | invert inner => callFree inner
  | binary _ left right => callFree left && callFree right

theorem eval_asks (env : Env σ) (before : Session σ) (logical : Bool) (e : Expr) (free : e.callFree = true) :
    Run.Keeps before.Asked Exit.any (eval env logical e) := by
  cases e with
  | term text => exact evalTerm_confined env text
  | element name index =>
      exact Run.Keeps.bind (eval_asks env before false index free) fun value => evalElement_confined env name value
  | quoted text inCall =>
      unfold eval
      split
      · exact Run.Keeps.pure _
      · exact Run.Keeps.fail _
  | group bare inner => exact eval_asks env before logical inner free
  | call name args => cases free
  | negate operand => exact Run.Keeps.bind (eval_asks env before logical operand free) negated_confined
  | invert operand => exact Run.Keeps.bind (eval_asks env before logical operand free) inverted_confined
  | binary op left right =>
      obtain ⟨first, second⟩ := Bool.and_eq_true_iff.mp free
      refine Run.Keeps.bind (eval_asks env before logical left first) fun a => ?_
      exact Run.Keeps.bind (eval_asks env before logical right second) fun b => combine_confined op a b

theorem evalAll_asks (env : Env σ) (before : Session σ) (logical : Bool) {args : List Expr}
    (free : ∀ arg ∈ args, arg.callFree = true) : Run.Keeps before.Asked Exit.any (evalAll env logical args) := by
  induction args with
  | nil => exact Run.Keeps.pure _
  | cons e rest ih =>
      refine Run.Keeps.bind (eval_asks env before logical e (free e List.mem_cons_self)) fun value => ?_
      exact Run.Keeps.bind (ih fun arg member => free arg (List.mem_cons_of_mem _ member)) fun _ => Run.Keeps.pure _

end Expr

/-- The functions that write integers, texts and buffers. -/
inductive WriteKind where
  | int
  | long
  | string
  | array
  deriving DecidableEq, Repr

namespace WriteKind

def function : WriteKind → Builtin
  | int => .writeInt
  | long => .writeLong
  | string => .writeString
  | array => .writeArray

def name (kind : WriteKind) : Text := kind.function.name

/-- The values that a call is to write; with other values it is to fail. -/
def Accepts : WriteKind → List Value → Prop
  | int, [.int n] => -2 ^ 31 ≤ n ∧ n < 2 ^ 31
  | long, [.int n] => -2 ^ 63 ≤ n ∧ n < 2 ^ 63
  | string, [.text s] => ∃ characters : String, s = Text.ofString characters
  | array, [.buffer _] => True
  | array, [.buffer buffer, .int start, .int count] =>
    1 ≤ start ∧ start ≤ buffer.size ∧ 0 ≤ count ∧ start + count - 1 ≤ buffer.size
  | _, _ => False

/-- The bytes that a call is to write: an integer is read back from as many as its width, a text is in UTF-8, and the
elements of a buffer are those of a window, which is the whole buffer if it is not given. -/
def Encodes : WriteKind → List Value → List UInt8 → Prop
  | int, [.int n], bytes => bytes.length = 4 ∧ Buffer.signed bytes = n
  | long, [.int n], bytes => bytes.length = 8 ∧ Buffer.signed bytes = n
  | string, [.text s], bytes => ∃ characters : String, s = Text.ofString characters ∧ bytes = characters.toUTF8.toList
  | array, [.buffer buffer], bytes => buffer.AreElements 0 buffer.size bytes
  | array, [.buffer buffer, .int start, .int count], bytes => buffer.AreElements (start - 1).toNat count.toNat bytes
  | _, _, _ => False

theorem accepts_integer (values : List Value) :
    (int.Accepts values ↔ ∃ n, values = [.int n] ∧ -2 ^ 31 ≤ n ∧ n < 2 ^ 31) ∧
      (long.Accepts values ↔ ∃ n, values = [.int n] ∧ -2 ^ 63 ≤ n ∧ n < 2 ^ 63) := by
  match values with
  | [.int n] => simp [Accepts]
  | [] | [.real _] | [.text _] | [.buffer _] | _ :: _ :: _ => simp [Accepts]

end WriteKind

namespace Builtin

/-- A call writes the bytes of its values, or fails and leaves the session as it is. -/
inductive Writes (kind : WriteKind) (values : List Value) (session : Session σ) :
    EStateM.Result Exit (Session σ) Value → Prop
  | written {bytes : List UInt8} {result : Value} : kind.Accepts values → kind.Encodes values bytes →
      Writes kind values session (.ok result (session.writeBytes bytes))
  | refused {exit : Exit} : ¬kind.Accepts values → Writes kind values session (.error exit session)

variable {kind : WriteKind} {session : Session σ} {handle : Handle} (opened : session.writeFile = some handle)

include opened

theorem expectWriteFile_opened (f : Builtin) : f.expectWriteFile session = .ok () session := by
  simp [expectWriteFile, bind, EStateM.bind, EStateM.get_apply, opened, pure, EStateM.pure]

theorem writtenValue_writes (f : Builtin) {values : List Value} {write : Value → Run σ Value}
    (single : kind.Accepts values → ∃ value, values = [value])
    (each : ∀ value, Writes kind [value] session (write value session)) :
    Writes kind values session ((f.writtenValue values >>= write) session) := by
  have refuses {exit : Exit} (left : f.writtenValue values session = .error exit session)
    (none : ∀ value, values ≠ [value]) :
      Writes kind values session ((f.writtenValue values >>= write) session) := by
    change Writes kind values session (EStateM.bind (f.writtenValue values) write session)
    rw [EStateM.bind, left]
    refine .refused fun accepted => ?_
    obtain ⟨value, same⟩ := single accepted
    exact none value same
  have read : f.writtenValue values session = _ := Run.bind_ok (expectWriteFile_opened opened f) _
  rcases values with _ | ⟨value, _ | ⟨second, more⟩⟩
  · exact refuses read (by simp)
  · rw [Run.bind_ok read]
    exact each value
  · exact refuses read (by simp)

theorem writeInteger_writes {width : Nat} (positive : 0 < width)
    (accepts : ∀ values, kind.Accepts values ↔
      ∃ n, values = [.int n] ∧ -2 ^ (8 * width - 1) ≤ n ∧ n < 2 ^ (8 * width - 1))
    (encodes : ∀ n bytes, bytes.length = width → Buffer.signed bytes = n → kind.Encodes [.int n] bytes)
    (f : Builtin) (values : List Value) : Writes kind values session (f.writeInteger width values session) := by
  refine writtenValue_writes opened f (fun accepted => ?_) fun value => ?_
  · obtain ⟨n, same, -⟩ := (accepts values).mp accepted
    exact ⟨.int n, same⟩
  cases value with
  | int n =>
      cases within : Buffer.inWidth (8 * width) n with
      | true =>
          simp only [integer, pure_bind, within, Bool.not_true, Bool.false_eq_true, if_false]
          refine .written ((accepts _).mpr ⟨n, rfl, Buffer.inWidth_iff.mp within⟩) ?_
          refine encodes n _ (Buffer.length_integerBytes width n) ?_
          rw [Buffer.signed_integerBytes, Buffer.bmod_inWidth (by omega) within]
      | false =>
          simp only [integer, pure_bind, within, Bool.not_false, if_true]
          refine .refused fun accepted => ?_
          obtain ⟨_, ⟨⟩, inside⟩ := (accepts _).mp accepted
          rw [Buffer.inWidth_iff.mpr inside] at within
          cases within
  | real x | text s | buffer b =>
      refine .refused fun accepted => ?_
      obtain ⟨n, ⟨⟩, -⟩ := (accepts _).mp accepted

theorem writeString_writes (env : Env σ) (values : List Value) :
    Writes .string values session (writeString.run env values session) := by
  refine writtenValue_writes opened writeString (fun accepted => ?_) fun value => ?_
  · match values, accepted with
    | [.text s], _ => exact ⟨.text s, rfl⟩
  cases value with
  | text s =>
      cases encoded : Text.encode? s with
      | none =>
          simp only [encodeWhole, encoded]
          refine .refused fun ⟨characters, same⟩ => ?_
          rw [Text.encode?_eq_some.mpr ⟨characters, same, rfl⟩] at encoded
          cases encoded
      | some bytes =>
          simp only [encodeWhole, encoded]
          obtain ⟨characters, same, rfl⟩ := Text.encode?_eq_some.mp encoded
          exact .written ⟨characters, same⟩ ⟨characters, same, rfl⟩
  | int n | real x | buffer b => exact .refused nofun

omit opened in
/-- A number that is refused leaves with an error, or with a fault if it has too many digits to be shown. -/
theorem refuseNumber_ends {α β : Type} (f : Builtin) (n : Int) (error : ArgumentError) (next : α → Run σ β) :
    ∃ exit, (f.refuseNumber n error >>= next) session = .error exit session := by
  change ∃ exit, EStateM.bind (EStateM.bind (Run.ofFault (Number.integerText n)) fun _ => f.refuse error) next
    session = _
  simp only [EStateM.bind]
  cases Number.integerText n with
  | ok shown => exact ⟨_, rfl⟩
  | error fault => exact ⟨_, rfl⟩

omit opened in
theorem arrayWindow_ends (f : Builtin) (size : Nat) (start count : Value) :
    (∃ s c, start = .int s ∧ count = .int c ∧ (1 ≤ s ∧ s ≤ size ∧ 0 ≤ c ∧ s + c - 1 ≤ size) ∧
      f.arrayWindow size start count session = .ok ((s - 1).toNat, c.toNat) session) ∨
    (∀ s c, start = .int s → count = .int c → ¬(1 ≤ s ∧ s ≤ size ∧ 0 ≤ c ∧ s + c - 1 ≤ size)) ∧
      ∃ exit, f.arrayWindow size start count session = .error exit session := by
  cases start with
  | int s =>
      simp only [arrayWindow, integer, pure_bind]
      split
      · exact .inr ⟨by rintro _ c ⟨⟩ -; omega, refuseNumber_ends f _ _ _⟩
      split
      · exact .inr ⟨by rintro _ c ⟨⟩ -; omega, refuseNumber_ends f _ _ _⟩
      cases count with
      | int c =>
          simp only [pure_bind]
          split
          · exact .inr ⟨by rintro _ _ ⟨⟩ ⟨⟩; omega, refuseNumber_ends f _ _ _⟩
          split
          · exact .inr ⟨by rintro _ _ ⟨⟩ ⟨⟩; omega, refuseNumber_ends f _ _ _⟩
          exact .inl ⟨s, c, rfl, rfl, by omega, rfl⟩
      | real x | text t | buffer b => exact .inr ⟨by simp, _, rfl⟩
  | real x | text t | buffer b => exact .inr ⟨by simp, _, rfl⟩

theorem runWriteArray_writes (f : Builtin) (values : List Value) :
    Writes .array values session (f.runWriteArray values session) := by
  have read : f.runWriteArray values session = _ := Run.bind_ok (expectWriteFile_opened opened f) _
  rw [read]
  rcases values with _ | ⟨first, _ | ⟨start, _ | ⟨count, _ | ⟨extra, more⟩⟩⟩⟩
  · exact .refused (by simp [WriteKind.Accepts])
  · cases first with
    | buffer buffer => exact .written trivial (Buffer.bytes_areElements (Nat.zero_add _).le)
    | int n | real x | text t => exact .refused id
  · exact .refused (by simp [WriteKind.Accepts])
  · cases first with
    | buffer buffer =>
        rcases @arrayWindow_ends σ session f buffer.size start count with
          ⟨s, c, rfl, rfl, inside, window⟩ | ⟨outside, exit, left⟩
        · simp only [pure_bind]
          rw [Run.bind_ok window]
          exact .written inside (Buffer.bytes_areElements (by omega))
        · simp only [pure_bind]
          change Writes _ _ _ (EStateM.bind (f.arrayWindow buffer.size start count) _ session)
          rw [EStateM.bind, left]
          refine .refused fun accepted => ?_
          cases start with
          | int s =>
              cases count with
              | int c => exact outside s c rfl rfl accepted
              | real x | text t | buffer b => exact accepted
          | real x | text t | buffer b => cases count <;> exact accepted
    | int n | real x | text t => exact .refused id
  · exact .refused (by simp [WriteKind.Accepts])

theorem invoke_writes (env : Env σ) (kind : WriteKind) (values : List Value) :
    Writes kind values session (invoke env kind.name values session) := by
  have known : invoke env kind.name values = kind.function.run env values := by cases kind <;> rfl
  rw [known]
  cases kind with
  | int =>
      refine writeInteger_writes opened (by decide) (fun values => (WriteKind.accepts_integer values).1) ?_
        .writeInt values
      exact fun n bytes length same => ⟨length, same⟩
  | long =>
      refine writeInteger_writes opened (by decide) (fun values => (WriteKind.accepts_integer values).2) ?_
        .writeLong values
      exact fun n bytes length same => ⟨length, same⟩
  | string => exact writeString_writes opened env values
  | array => exact runWriteArray_writes opened .writeArray values

end Builtin

end CommandScript
