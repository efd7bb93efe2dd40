import CommandScript.Lines

/-! Folding as a function of streams. Where no logical line is open, what follows is folded by itself, with later
numbers; and a reader that hands out one logical line at a call reads every physical line once and in order, whatever
the lines are. -/

namespace CommandScript.Lines

theorem kept?_filled {text kept : Text} (found : kept? text = some kept) : kept ≠ [] := by
  unfold kept? at found
  dsimp only at found
  split at found
  · cases found
  · rename_i filled
    obtain rfl := Option.some.inj found
    exact fun blank => filled (.inl blank)

def eventsOf (part : Option Open) (number : Nat) (raw : Text) : List Event :=
  .asked part.isSome :: (if (extend part raw).2.2 then [.warning] else []) ++
    (advance part raw).2.toList.map (.line · number)

theorem foldFrom_cons (part : Option Open) (number : Nat) (raw : Text) (rest : List Text) :
    foldFrom part number (raw :: rest) =
      eventsOf part (number + 1) raw ++ foldFrom (advance part raw).1 (number + 1) rest := by
  rcases step : extend part raw with ⟨whole, follows, warns⟩
  cases follows <;> cases warns <;> simp [foldFrom, eventsOf, advance, step, deliver]

def openAfter (part : Option Open) (physical : List Text) : Option Open :=
  physical.foldl (fun part raw => (advance part raw).1) part

def Event.later (lines : Nat) : Event → Event
  | .line text number => .line text (lines + number)
  | event => event

theorem eventsOf_later (lines : Nat) (part : Option Open) (number : Nat) (raw : Text) :
    eventsOf part (lines + number) raw = (eventsOf part number raw).map (Event.later lines) := by
  unfold eventsOf
  split <;> simp [Event.later]

theorem foldFrom_later (lines : Nat) (part : Option Open) (number : Nat) (physical : List Text) :
    foldFrom part (lines + number) physical = (foldFrom part number physical).map (Event.later lines) := by
  induction physical generalizing part number with
  | nil => cases part <;> simp [foldFrom, deliver, Event.later]
  | cons raw rest ih =>
      rw [foldFrom_cons, foldFrom_cons, Nat.add_assoc, eventsOf_later, ih, List.map_append]

/-- Where no line is open, the reader asks once more and finds the end; with other lines behind them, it goes on. -/
theorem foldFrom_append {part : Option Open} {before : List Text} (ends : openAfter part before = none) (number : Nat) :
    ∃ events, foldFrom part number before = events ++ [.asked false] ∧
      ∀ after, foldFrom part number (before ++ after) = events ++ foldFrom none (number + before.length) after := by
  induction before generalizing part number with
  | nil =>
      obtain rfl : part = none := ends
      exact ⟨[], rfl, fun after => rfl⟩
  | cons raw rest ih =>
      obtain ⟨events, alone, followed⟩ := ih ends (number + 1)
      refine ⟨eventsOf part (number + 1) raw ++ events, ?_, fun after => ?_⟩
      · rw [foldFrom_cons, alone, List.append_assoc]
      · rw [List.cons_append, foldFrom_cons, followed, List.append_assoc, List.length_cons]
        congr 3
        omega

@[simp] theorem logical_append (events more : List Event) : logical (events ++ more) = logical events ++ logical more :=
  List.filterMap_append

theorem logical_later (lines : Nat) (events : List Event) :
    logical (events.map (Event.later lines)) = (logical events).map fun (text, number) => (text, lines + number) := by
  induction events with
  | nil => rfl
  | cons event rest ih => cases event <;> simpa [logical, Event.later] using ih

theorem logical_eventsOf (part : Option Open) (number : Nat) (raw : Text) :
    logical (eventsOf part number raw) = (advance part raw).2.toList.map (·, number) := by
  unfold eventsOf
  split <;> cases (advance part raw).2 <;> rfl

theorem advance_filled {part : Option Open} {raw text : Text} (ended : (advance part raw).2 = some text) :
    text ≠ [] := by
  unfold advance at ended
  dsimp only at ended
  split at ended
  · cases ended
  · exact kept?_filled ended

theorem logical_filled (part : Option Open) (number : Nat) (physical : List Text) :
    ∀ line ∈ logical (foldFrom part number physical), line.1 ≠ [] := by
  induction physical generalizing part number with
  | nil =>
      cases part with
      | none => nofun
      | some part =>
          rw [foldFrom, deliver]
          cases ended : kept? part.text with
          | none => nofun
          | some text =>
              intro line member
              obtain rfl : line = (text, number) := by simpa [logical] using member
              exact kept?_filled ended
  | cons raw rest ih =>
      intro line member
      rw [foldFrom_cons, logical_append, logical_eventsOf, List.mem_append] at member
      rcases member with here | later
      · cases ended : (advance part raw).2 with
        | none => simp [ended] at here
        | some text =>
            obtain rfl : line = (text, number + 1) := by simpa [ended] using here
            exact advance_filled ended
      · exact ih _ _ line later

def Event.isAsked : Event → Bool
  | .asked _ => true
  | _ => false

theorem countP_asked (part : Option Open) (number : Nat) (physical : List Text) :
    (foldFrom part number physical).countP Event.isAsked =
      physical.length + if (openAfter part physical).isSome then 2 else 1 := by
  induction physical generalizing part number with
  | nil =>
      cases part with
      | none => rfl
      | some part =>
          cases ended : kept? part.text <;> simp only [foldFrom, deliver, ended] <;> rfl
  | cons raw rest ih =>
      have once : (eventsOf part (number + 1) raw).countP Event.isAsked = 1 := by
        unfold eventsOf
        split <;> cases (advance part raw).2 <;> rfl
      have same : openAfter part (raw :: rest) = openAfter (advance part raw).1 rest := rfl
      rw [foldFrom_cons, List.countP_append, once, ih, same, List.length_cons]
      omega

namespace LineReader

theorem advance_ended {part : Option Open} {raw text : Text} (ended : (advance part raw).2 = some text) :
    (advance part raw).1 = none := by
  rcases step : extend part raw with ⟨whole, follows, warns⟩
  cases follows <;> simp_all [advance]

/-- A call of the reader: the physical lines it takes, and the part of the folded lines that it returns. -/
theorem readFrom_spec (part : Option Open) (taken : List Text) (number : Nat) (ahead : List Text) :
    ∃ used rest, ahead = used ++ rest ∧
      (readFrom part taken number ahead).2 = ⟨rest, taken ++ used, number + used.length⟩ ∧
      match (readFrom part taken number ahead).1 with
      | some text =>
        (part = none → used ≠ []) ∧
          logical (foldFrom part number ahead) =
            (text, number + used.length) :: logical (foldFrom none (number + used.length) rest)
      | none => rest = [] ∧ logical (foldFrom part number ahead) = [] := by
  induction ahead generalizing part taken number with
  | nil =>
      refine ⟨[], [], rfl, by simp [readFrom], ?_⟩
      cases part with
      | none => exact ⟨rfl, rfl⟩
      | some part => cases ended : kept? part.text <;> simp [readFrom, foldFrom, deliver, ended, logical]
  | cons raw rest ih =>
      -- a physical line ends the logical one or the call goes on to the next
      cases ended : (advance part raw).2 with
      | some text =>
          have read : readFrom part taken number (raw :: rest) = (some text, ⟨rest, taken ++ [raw], number + 1⟩) := by
            rw [readFrom, ← Prod.eta (advance part raw), ended]
          refine ⟨[raw], rest, rfl, by rw [read]; rfl, ?_⟩
          rw [read]
          refine ⟨fun _ => by simp, ?_⟩
          rw [foldFrom_cons, logical_append, logical_eventsOf, ended, advance_ended ended]
          rfl
      | none =>
          have read : readFrom part taken number (raw :: rest) =
              readFrom (advance part raw).1 (taken ++ [raw]) (number + 1) rest := by
            rw [readFrom, ← Prod.eta (advance part raw), ended]
          obtain ⟨used, last, whole, reader, result⟩ := ih (advance part raw).1 (taken ++ [raw]) (number + 1)
          have passed : number + 1 + used.length = number + (raw :: used).length := by
            rw [List.length_cons]
            omega
          have same : logical (foldFrom part number (raw :: rest)) =
              logical (foldFrom (advance part raw).1 (number + 1) rest) := by
            rw [foldFrom_cons, logical_append, logical_eventsOf, ended]
            rfl
          refine ⟨raw :: used, last, by rw [whole]; rfl, ?_, ?_⟩
          · rw [read, reader, passed, List.append_assoc]
            rfl
          · rw [read, same]
            rw [passed] at result
            split at result
            · exact ⟨fun _ => by simp, result.2⟩
            · exact result

/-- Reading line by line gives the folded lines and comes to the end of the physical ones. -/
theorem readAll_eq (reader : LineReader) :
    reader.readAll =
      (logical (foldFrom none reader.number reader.ahead),
        ⟨[], reader.taken ++ reader.ahead, reader.number + reader.ahead.length⟩) := by
  fun_induction readAll reader with
  | case1 reader after found =>
      obtain ⟨used, rest, whole, last, result⟩ := readFrom_spec none reader.taken reader.number reader.ahead
      rw [read] at found
      rw [found] at last result
      obtain ⟨rfl, nothing⟩ := result
      rw [List.append_nil] at whole
      rw [nothing, whole]
      exact congrArg (Prod.mk []) last
  | case2 reader text after found ih =>
      obtain ⟨used, rest, whole, last, result⟩ := readFrom_spec none reader.taken reader.number reader.ahead
      rw [read] at found
      rw [found] at last result
      dsimp only at last result
      rw [ih, result.2, last, whole]
      simp [Nat.add_assoc]

end LineReader

/-- Folding is a stream function that loses no line. What follows lines that leave nothing open is folded by itself.
A reader that is asked for one logical line after the other returns the folded lines, and takes every physical line
once, in order; and no line that it returns is empty. -/
theorem fold_stream (before : List Text) :
    (∀ after, openAfter none before = none →
      logical (fold (before ++ after)) =
        logical (fold before) ++ (logical (fold after)).map fun (text, number) => (text, before.length + number)) ∧
    LineReader.readAll { ahead := before } =
      (logical (fold before), { ahead := [], taken := before, number := before.length }) ∧
    (fold before).countP Event.isAsked = before.length + (if (openAfter none before).isSome then 2 else 1) ∧
    ∀ line ∈ logical (fold before), line.1 ≠ [] := by
  refine ⟨fun after ends => ?_, ?_, countP_asked none 0 before, logical_filled none 0 before⟩
  · obtain ⟨events, alone, followed⟩ := foldFrom_append ends 0
    have shifted := foldFrom_later before.length none 0 after
    rw [fold, followed, fold, alone, fold, logical_append, logical_append, ← logical_later, ← shifted]
    simp [logical]
  · simpa [fold] using LineReader.readAll_eq { ahead := before }

/-- A continued line, a span with a continued line and a line that opens a brace again, a comment and a blank line; what
follows leaves a brace open. -/
theorem fold_stream_tangled :
    let before : List Text := ["print a \\", " b # note", "parse f \x7b", "x = 1 \\", "g \x7b", "\x7d", "", "# only"]
    let after : List Text := ["last", "y \x7b"]
    openAfter none before = none ∧
      logical (fold (before ++ after)) =
        logical (fold before) ++ (logical (fold after)).map fun (text, number) => (text, before.length + number) :=
  ⟨by decide +kernel, (fold_stream _).1 _ (by decide +kernel)⟩

/-- What a physical line puts into the logical one, inside of braces or not. -/
def piece (inBraces : Bool) (raw : Text) : Text :=
  let text := clean raw
  match text.getLast? with
  | some '\\' => text.dropLast
  | some '\x7b' => text
  | some '\x7d' => text
  | _ => if inBraces then text ++ "\n" else text

def bracesAfter (inBraces : Bool) (raw : Text) : Bool :=
  match (clean raw).getLast? with
  | some '\x7b' => true
  | some '\x7d' => false
  | _ => inBraces

def joined (inBraces : Bool) : List Text → Text
  | [] => []
  | raw :: rest => piece inBraces raw ++ joined (bracesAfter inBraces raw) rest

/-- Physical lines that belong together: a group ends where no logical line is open. -/
def groupsFrom (part : Option Open) : List Text → List (List Text)
  | [] => [[]]
  | raw :: rest =>
    match (advance part raw).1 with
    | none => [raw] :: groupsFrom none rest
    | some whole => (groupsFrom (some whole) rest).modifyHead (raw :: ·)

theorem extend_eq (part : Option Open) (raw : Text) :
    (extend part raw).1 =
      ⟨(part.map (·.text)).getD [] ++ piece (part.any (·.inBraces)) raw, bracesAfter (part.any (·.inBraces)) raw⟩ := by
  unfold extend piece bracesAfter
  dsimp only
  split
  · simp [*]
  · simp [*]
  · simp [*]
  · split <;> simp_all

theorem advance_eq (part : Option Open) (raw : Text) :
    advance part raw = (some (extend part raw).1, none) ∨
      advance part raw = (none, kept? (extend part raw).1.text) := by
  unfold advance
  rcases extend part raw with ⟨whole, follows, warns⟩
  cases follows
  · exact .inr rfl
  · exact .inl rfl

theorem foldFrom_contents (part : Option Open) (number : Nat) (physical : List Text) :
    ∃ first rest, groupsFrom part physical = first :: rest ∧ (first :: rest).flatten = physical ∧
      texts (foldFrom part number physical) =
        (kept? ((part.map (·.text)).getD [] ++ joined (part.any (·.inBraces)) first)).toList ++
          rest.filterMap fun group => kept? (joined false group) := by
  induction physical generalizing part number with
  | nil =>
      refine ⟨[], [], rfl, rfl, ?_⟩
      cases part with
      | none => rfl
      | some part => cases ended : kept? part.text <;> simp [foldFrom, deliver, joined, ended, texts, logical]
  | cons raw more ih =>
      have step : texts (foldFrom part number (raw :: more)) =
          (advance part raw).2.toList ++ texts (foldFrom (advance part raw).1 (number + 1) more) := by
        rw [foldFrom_cons, texts, logical_append, logical_eventsOf, texts]
        cases (advance part raw).2 <;> rfl
      obtain ⟨first, rest, grouped, whole, same⟩ := ih (advance part raw).1 (number + 1)
      rw [step, same]
      -- the physical line is the end of a group, or it stands before the rest of it
      rcases advance_eq part raw with follows | ended
      · rw [follows] at grouped ⊢
        refine ⟨raw :: first, rest, ?_, ?_, ?_⟩
        · rw [groupsFrom, follows]
          simp [grouped]
        · simp [← whole]
        · simp [extend_eq, joined]
      · rw [ended] at grouped ⊢
        refine ⟨[raw], first :: rest, ?_, ?_, ?_⟩
        · rw [groupsFrom, ended]
          simp [grouped]
        · simp [← whole]
        · cases kept : kept? (joined false first) <;> simp [extend_eq, joined, kept]

/-- What the logical lines contain. Each is made of the physical lines of a group, without their ends, comments and
outer blanks; a backslash that continues a line is dropped, and between braces a newline is kept. -/
theorem fold_contents (physical : List Text) :
    (groupsFrom none physical).flatten = physical ∧
      texts (fold physical) = (groupsFrom none physical).filterMap fun group => kept? (joined false group) := by
  obtain ⟨first, rest, grouped, whole, same⟩ := foldFrom_contents none 0 physical
  rw [grouped]
  refine ⟨whole, same.trans ?_⟩
  cases kept : kept? (joined false first) <;> simp [kept]

end CommandScript.Lines
