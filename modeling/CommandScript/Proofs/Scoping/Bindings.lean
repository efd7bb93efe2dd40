import CommandScript.Proofs.Blocks.Contracts

/-! Where programs bind variables. Most programs leave the variables alone; the others set a name that was
checked, a name that a statement binds without a check, the variable of a loop or the number of its pass, or
they remove a name or make it global. An invariant of sessions that allows for these changes is kept by every
program that runs no further lines. -/

namespace CommandScript

variable {σ α : Type}

open Run

def Scope.names (scope : Scope) : List Text := scope.map (·.1)

namespace Scope

variable {scope : Scope} {name other value : Text}

theorem mem_names_set (member : other ∈ (scope.set name value).names) : other = name ∨ other ∈ scope.names := by
  induction scope with
  | nil => exact .inl (by simpa [names, set] using member)
  | cons entry rest ih =>
      obtain ⟨key, old⟩ := entry
      by_cases here : key = name
      · simp only [set, here, ↓reduceIte, names, List.map_cons, List.mem_cons] at member ⊢
        exact .inr member
      · simp only [set, here, ↓reduceIte, names, List.map_cons, List.mem_cons] at member ⊢
        rcases member with same | inner
        · exact .inr (.inl same)
        · exact (ih inner).imp_right .inr

theorem mem_names_erase (member : other ∈ (scope.erase name).names) : other ∈ scope.names := by
  obtain ⟨entry, inside, same⟩ := List.mem_map.mp member
  exact List.mem_map.mpr ⟨entry, List.mem_of_mem_filter inside, same⟩

theorem mem_names_of_get? (found : scope.get? name = some value) : name ∈ scope.names := by
  induction scope with
  | nil => cases found
  | cons entry rest ih =>
      obtain ⟨key, old⟩ := entry
      simp only [get?, List.lookup_cons] at found
      split at found
      · rename_i same
        simp [names, eq_of_beq same]
      · exact List.mem_cons_of_mem _ (ih found)

end Scope

def Exit.any (_ : Exit) : Prop := True

instance : Exit.Plain Exit.any where
  error _ := trivial
  exhausted := trivial
  conversion _ _ := trivial
  fault _ := trivial

/-- The variable that a loop sets from pass to pass; the sources of the host set theirs themselves. -/
def Loop.binds? (loop : Loop) : Option Text :=
  match loop.source with
  | .external _ _ => none
  | _ => some loop.name

def LoopHeader.binds? : LoopHeader → Option Text
  | .list name _ | .range name _ _ => some name
  | .external _ _ _ => none

def Frame.bound (frame : Frame) : List (Option Text) := frame.loops.map Loop.binds?

theorem Frame.modifyLoopAt_bound {frame : Frame} {depth : Nat} {loop : Loop} {f : Loop → Loop}
    (found : frame.loopAt? depth = some loop) (same : (f loop).binds? = loop.binds?) :
    (frame.modifyLoopAt depth f).bound = frame.bound := by
  have modified (loops : List Loop) (index : Nat) (there : loops[index]? = some loop) :
      (loops.modify index f).map Loop.binds? = loops.map Loop.binds? := by
    induction loops generalizing index with
    | nil => cases there
    | cons first rest ih =>
        cases index with
        | zero =>
            cases there
            simp only [List.modify_cons, ↓reduceIte, List.map_cons, same]
        | succ index => simp only [List.modify_succ_cons, List.map_cons, ih index there]
  simp only [bound, modifyLoopAt, List.map_reverse, modified _ _ found, List.reverse_reverse]

/-- An invariant that allows for what programs do to variables. The names that may be set are those that a check
lets pass, the number of a pass, and what the sources and the listeners of the host set; the loops that are open
have such names, or none. What may be made global is for the invariant to say. -/
structure Allows (env : Env σ) (may shares : Text → Prop) (Inv : Session σ → Prop) : Prop where
  quiet {before after : Session σ} : Inv before → after.store = before.store →
    after.callers.map Frame.bound = before.callers.map Frame.bound → after.frame.bound ⊆ before.frame.bound → Inv after
  put {session : Session σ} {name : Text} (value : Text) : may name → Inv session → Inv (session.put name value)
  delete {session : Session σ} (name : Text) : Inv session →
    Inv { session with store := (session.store.delete name).2 }
  publish {session : Session σ} {name : Text} {store : Store} : shares name → session.store.publish name = .ok store →
    Inv session → Inv { session with store }
  push {session : Session σ} {loop : Loop} : (∀ name, loop.binds? = some name → may name) → Inv session →
    Inv { session with frame := { session.frame with loops := loop :: session.frame.loops } }
  loops {session : Session σ} : Inv session → ∀ name, some name ∈ session.frame.bound → may name
  checked {name : Text} : Names.isReserved name = false → may name
  index : may "for_index"
  replies (verb : SourceVerb) (qualifier : Option Text) (type name : Text) (host : σ) :
    ∀ write ∈ (env.services.askSource verb qualifier type name host).1.writes, may write.1
  listens (event : Text) (args : List Text) (host : σ) : ∀ write ∈ (env.services.emit event args host).1.writes,
    may write.1

structure Fixed (reference left right : Session σ) : Prop where
  same : left = right
  store : left.store = reference.store
  frame : left.frame = reference.frame
  callers : left.callers = reference.callers

theorem Fixed.printable (reference : Session σ) : Printable (Fixed reference) where
  store := by rintro _ _ ⟨rfl, _, _, _⟩; rfl
  buffers := by rintro _ _ ⟨rfl, _, _, _⟩; rfl
  depth := by rintro _ _ ⟨rfl, _, _, _⟩; rfl
  writeFile := by rintro _ _ ⟨rfl, _, _, _⟩; rfl
  files := by rintro _ _ ⟨rfl, _, _, _⟩; rfl
  host := by rintro _ _ ⟨rfl, _, _, _⟩; rfl
  withDepth := by rintro _ _ _ ⟨rfl, store, frame, callers⟩; exact ⟨rfl, store, frame, callers⟩
  withHost := by rintro _ _ _ ⟨rfl, store, frame, callers⟩; exact ⟨rfl, store, frame, callers⟩
  writeBytes := by
    rintro left _ bytes ⟨rfl, store, frame, callers⟩
    cases written : left.writeFile <;> simp only [Session.writeBytes, written] <;> exact ⟨rfl, store, frame, callers⟩
  printFile := by rintro _ _ ⟨rfl, _, _, _⟩; rfl
  report := by rintro _ _ _ ⟨rfl, store, frame, callers⟩; exact ⟨rfl, store, frame, callers⟩
  output := by rintro _ _ _ ⟨rfl, store, frame, callers⟩; exact ⟨rfl, store, frame, callers⟩
  withPrintFile := by rintro _ _ _ _ ⟨rfl, store, frame, callers⟩; exact ⟨rfl, store, frame, callers⟩
  withWriteFile := by rintro _ _ _ _ ⟨rfl, store, frame, callers⟩; exact ⟨rfl, store, frame, callers⟩

theorem Session.noteEnd_kept (session : Session σ) (loop : Loop) :
    (session.noteEnd loop).store = session.store ∧ (session.noteEnd loop).callers = session.callers ∧
      (session.noteEnd loop).host = session.host := by
  unfold Session.noteEnd
  split
  · exact ⟨rfl, rfl, rfl⟩
  · split <;> exact ⟨rfl, rfl, rfl⟩

theorem Run.Meets.kept {Inv : Session σ → Prop} {program : Run σ α} {session : Session σ}
    (meets : Meets (fun _ => Inv) (fun _ => Inv) program session) : Kept Inv Exit.any (program session) := by
  unfold Meets at meets
  generalize program session = result at meets ⊢
  cases meets with
  | ok holds => exact .ok holds
  | error holds => exact .error holds trivial

namespace Allows

variable {env : Env σ} {may shares : Text → Prop} {Inv : Session σ → Prop} (allows : Allows env may shares Inv)

include allows

theorem fixed {program : Run σ α} (respects : ∀ reference, Respects (Fixed reference) program) :
    Keeps Inv Exit.any program := by
  intro session holds
  have linked := @respects session session session ⟨rfl, rfl, rfl, rfl⟩
  have still {after : Session σ} (fixed : Fixed session after after) : Inv after :=
    allows.quiet holds fixed.store (congrArg _ fixed.callers) (by rw [fixed.frame]; exact List.Subset.refl _)
  generalize program session = result at linked ⊢
  cases linked with
  | ok fixed => exact .ok (still (fixed.same ▸ fixed))
  | error fixed => exact .error (still (fixed.same ▸ fixed)) trivial

theorem modifyFrame {f : Frame → Frame} (kept : ∀ frame, (f frame).bound ⊆ frame.bound) :
    Keeps Inv Exit.any (Run.modifyFrame f : Run σ Unit) :=
  Keeps.change fun session holds => allows.quiet holds rfl rfl (kept session.frame)

theorem aside {f : Frame → Frame} (kept : ∀ frame, (f frame).loops = frame.loops) :
    Keeps Inv Exit.any (Run.modifyFrame f : Run σ Unit) :=
  allows.modifyFrame fun frame => by
    rw [Frame.bound, kept]
    exact List.Subset.refl _

theorem puts {name : Text} (allowed : may name) (value : Text) : Keeps Inv Exit.any (Run.put name value : Run σ Unit) :=
  Keeps.change fun _ holds => allows.put value allowed holds

theorem reports (error : ScriptError) : Keeps Inv Exit.any (Report.add env error) := by
  have adds (text : Text) : Keeps Inv Exit.any (Run.report text : Run σ Unit) :=
    allows.fixed fun reference => Respects.report (Fixed.printable reference) text
  refine Keeps.read fun session => Keeps.bind (adds _) fun _ => ?_
  split
  · exact adds _
  · exact Keeps.pure _

theorem setsAll {writes : List (Text × Text)} {session : Session σ} (allowed : ∀ write ∈ writes, may write.1)
    (holds : Inv session) : Inv { session with store := session.store.setAll writes } := by
  induction writes generalizing session with
  | nil => exact holds
  | cons write rest ih =>
      exact ih (fun other member => allowed other (List.mem_cons_of_mem _ member))
        (allows.put write.2 (allowed write (List.mem_cons_self ..)) holds)

theorem asksSetting {request : SettingM σ α} (allowed : ∀ host, ∀ write ∈ (request host).1.writes, may write.1) :
    Keeps Inv Exit.any (Run.askSetting request) := fun session holds =>
  .ok (allows.setsAll (allowed session.host) (allows.quiet holds rfl rfl (List.Subset.refl _)))

theorem emits (event : Text) (args : List Text) : Keeps Inv Exit.any (Interpreter.emit env event args) := by
  refine Keeps.bind (allows.asksSetting (allows.listens event args)) fun reply => ?_
  split
  · exact Keeps.pure _
  · exact Keeps.throw trivial
  · exact Keeps.read fun session => Keeps.throw trivial

section Flow

theorem asksSource (verb : SourceVerb) (qualifier : Option Text) (type name : Text) :
    Keeps Inv Exit.any (Flow.askSource env verb qualifier type name) := by
  refine Keeps.bind (allows.asksSetting (allows.replies verb qualifier type name)) fun reply => ?_
  split
  · exact Keeps.pure _
  · split
    · exact Keeps.fail _
    · exact Keeps.throw trivial
  · exact Keeps.fail _

theorem bindsFields {name : Text} (allowed : may name) : Keeps Inv Exit.any (Flow.bindFields name : Run σ Loop) := by
  refine Keeps.bind (allows.fixed fun reference => Respects.readVariable (Fixed.printable reference).toEvaluable name)
    fun stored => ?_
  split
  · exact Keeps.fail _
  · dsimp only
    split
    · exact Keeps.bind (allows.puts allowed _) fun _ => Keeps.pure _
    · exact Keeps.pure _

theorem bindsFirst {header : LoopHeader} (allowed : ∀ name, header.binds? = some name → may name) :
    Keeps Inv Exit.any (Flow.bindFirst env header) := by
  have bounds (bound : Bound) (text : Text) : Keeps Inv Exit.any (Flow.rangeBound env bound text) :=
    allows.fixed fun reference => Flow.rangeBound_respects (Fixed.printable reference).toEvaluable env bound text
  cases header with
  | range name first last =>
      refine Keeps.bind (bounds _ _) fun start => Keeps.bind (bounds _ _) fun stop => ?_
      dsimp only
      split
      · exact Keeps.bind (allows.puts (allowed name rfl) _) fun _ => Keeps.pure _
      · exact Keeps.pure _
  | list name literal =>
      cases literal with
      | none =>
          rw [Flow.bindFirst_stored]
          exact allows.bindsFields (allowed name rfl)
      | some text =>
          rw [Flow.bindFirst_literal]
          exact Keeps.bind (allows.puts (allowed name rfl) _) fun _ => allows.bindsFields (allowed name rfl)
  | external name qualifier type =>
      refine Keeps.bind (allows.asksSource _ _ _ _) fun answer => ?_
      split
      · exact Keeps.pure _
      · exact Keeps.pure _
      · exact Keeps.fail _
      · exact Keeps.fail _

theorem givesBack {loop : Loop} (allowed : ∀ name, loop.binds? = some name → may name) :
    Keeps Inv Exit.any (Flow.giveBack env loop) := by
  unfold Flow.giveBack
  split
  · rename_i listed
    exact allows.puts (allowed loop.name (by simp only [Loop.binds?, listed])) _
  · exact Keeps.pure _
  · exact Keeps.bind (allows.asksSource _ _ _ _) fun _ => Keeps.pure _

theorem closesLoop {loop : Loop} (allowed : ∀ name, loop.binds? = some name → may name) :
    Keeps Inv Exit.any (Flow.closeLoop env loop) :=
  Keeps.bind (Keeps.change fun _ holds => allows.quiet holds rfl rfl (List.Subset.refl _)) fun _ =>
    allows.givesBack allowed

theorem abandons (count : Nat) : Keeps Inv Exit.any (Flow.abandonLoops env count) := by
  induction count with
  | zero => exact Keeps.pure _
  | succ count ih =>
      intro session holds
      refine (Meets.read ?_).kept
      cases loops : session.frame.loops with
      | nil => exact Meets.pure holds
      | cons loop rest =>
          -- the innermost loop goes first, and the others are abandoned once it is closed or has failed to
          have allowed (name : Text) (binds : loop.binds? = some name) : may name :=
            allows.loops holds name (by simp [Frame.bound, loops, binds])
          have popped : Inv { session with frame := { session.frame with loops := rest } } := by
            refine allows.quiet holds rfl rfl fun name member => ?_
            simp only [Frame.bound, loops, List.map_cons]
            exact List.mem_cons_of_mem _ member
          have closes := Keeps.onError (allows.closesLoop allowed) allows.reports fun _ _ _ => (trivial : Exit.any _)
          exact Meets.change_bind (Keeps.bind closes (fun _ => ih) popped).meets

theorem abandonsAll : Keeps Inv Exit.any (Flow.abandonAll env) := Keeps.read fun _ => allows.abandons _

theorem advances (depth : Nat) : Keeps Inv Exit.any (Flow.advance env depth) := by
  intro session holds
  refine (Meets.read ?_).kept
  cases found : session.frame.loopAt? depth with
  | none => exact Meets.pure holds
  | some loop =>
      have member : loop ∈ session.frame.loops := List.mem_reverse.mp (List.mem_of_getElem? found)
      have allowed {name : Text} (binds : loop.binds? = some name) : may name :=
        allows.loops holds name (binds ▸ List.mem_map_of_mem member)
      -- the element is bound before the loop moves on, or after it, but the loop is the same
      have moved {reached : Session σ} (kept : Inv reached) (still : reached.frame = session.frame)
        {source : LoopSource}
          (same : Loop.binds? { loop with source } = loop.binds?) :
          Inv { reached with frame := reached.frame.modifyLoopAt depth fun loop => { loop with source } } := by
        refine allows.quiet kept rfl rfl ?_
        rw [still]
        dsimp only
        rw [Frame.modifyLoopAt_bound found same]
        exact List.Subset.refl _
      dsimp only
      split
      · rename_i known
        have binds : loop.binds? = some loop.name := by simp only [Loop.binds?, known]
        split
        · exact Meets.pure holds
        · rename_i field _
          exact Meets.change_bind (Meets.change_bind
            (Meets.pure (moved (allows.put field (allowed binds) holds) rfl binds.symm)))
      · rename_i known
        have binds : loop.binds? = some loop.name := by simp only [Loop.binds?, known]
        refine Meets.change_bind ?_
        split
        · exact Meets.pure (moved holds rfl binds.symm)
        · exact Meets.change_bind (Meets.pure (allows.put _ (allowed binds) (moved holds rfl binds.symm)))
      · exact (allows.asksSource _ _ _ _ holds).meets

theorem finishes (depth resume : Nat) : Keeps Inv Exit.any (Flow.finishLoop env depth resume) := by
  have drops : Keeps Inv Exit.any
      (Run.modifyFrame fun frame => { frame with line := resume, loops := frame.loops.drop 1 } : Run σ Unit) := by
    refine allows.modifyFrame fun frame name member => ?_
    simp only [Frame.bound, List.map_drop] at member
    exact List.mem_of_mem_drop member
  intro session holds
  refine (Meets.read ?_).kept
  cases found : session.frame.loopAt? depth with
  | none => exact (Keeps.bind drops (fun _ => Keeps.pure _) holds).meets
  | some loop =>
      have member : loop ∈ session.frame.loops := List.mem_reverse.mp (List.mem_of_getElem? found)
      have allowed (name : Text) (binds : loop.binds? = some name) : may name :=
        allows.loops holds name (binds ▸ List.mem_map_of_mem member)
      have noted : Inv (session.noteEnd loop) := by
        refine allows.quiet holds (session.noteEnd_kept loop).1 (congrArg _ (session.noteEnd_kept loop).2.1) ?_
        rw [Session.noteEnd_frame]
        exact List.Subset.refl _
      exact Meets.change_bind (Keeps.bind drops (fun _ => allows.closesLoop allowed) noted).meets

end Flow

end Allows

theorem Flow.openLoop_binds (env : Env σ) (header : LoopHeader) :
    Yields (openLoop env header) fun loop => loop.binds? = header.binds? := by
  have fields (name : Text) : Yields (bindFields name : Run σ Loop) fun loop => loop.binds? = some name := by
    refine .bind fun stored => ?_
    split
    · exact .fail _
    · dsimp only
      split
      · exact .bind fun _ => .pure rfl
      · exact .pure rfl
  have first : Yields (bindFirst env header) fun loop => loop.binds? = header.binds? := by
    cases header with
    | range name first last =>
        refine .bind fun start => .bind fun stop => ?_
        dsimp only
        split
        · exact .bind fun _ => .pure rfl
        · exact .pure rfl
    | list name literal =>
        cases literal with
        | none =>
            rw [bindFirst_stored]
            exact fields name
        | some text =>
            rw [bindFirst_literal]
            exact .bind fun _ => fields name
    | external name qualifier type =>
        refine .bind fun answer => ?_
        split
        · exact .pure rfl
        · exact .pure rfl
        · exact .fail _
        · exact .fail _
  exact .given first fun loop same => .bind fun _ => .bind fun _ => .pure same

/-- What a statement is to make global, as it is written. -/
def Interpreter.published? (line : Text) : Option Text :=
  if Flow.isForeach line then none
  else if commandOf? line = some .publish then some (Text.trim (Text.cutOrAll ' ' line).2)
  else none

/-- The name that a statement binds without a check: that of a loop, or of a print into a variable. -/
def Interpreter.forced? (line : Text) : Option Text :=
  if Flow.isForeach line then (LoopHeader.parse line).toOption.bind LoopHeader.binds?
  else
    match commandOf? line with
    | some .sprint | some .sprintf => some (Text.cutOrAll ' ' (Text.trim (Text.cutOrAll ' ' line).2)).1
    | _ => none

theorem Names.unreserved_of_checkStored {name : Text} (passed : checkStored name = .ok ()) :
    isReserved name = false := by
  unfold checkStored at passed
  split at passed
  · cases passed
  split at passed
  · cases passed
  split at passed
  · cases passed
  split at passed
  · cases passed
  · rename_i free
    simpa using free

theorem Names.unreserved_of_checkAssigned {name : Text} (passed : checkAssigned name = .ok ()) :
    isReserved name = false := by
  unfold checkAssigned at passed
  split at passed
  · cases passed
  split at passed
  · cases passed
  split at passed
  · cases passed
  split at passed
  · cases passed
  · rename_i free
    simpa using free

theorem Command.storedName_checked (command rest : Text) :
    Yields (storedName command rest : Run σ (Text × Text)) fun given => Names.isReserved given.1 = false := by
  unfold storedName
  dsimp only
  split
  · exact .fail _
  · rename_i passed
    split
    · exact .pure (Names.unreserved_of_checkStored passed)
    · exact .fail _

namespace Allows

variable {env : Env σ} {may shares : Text → Prop} {Inv : Session σ → Prop} (allows : Allows env may shares Inv)

include allows

section Commands

theorem sprints (style : PrintStyle) {rest : Text} (allowed : may (Text.cutOrAll ' ' rest).1) :
    Keeps Inv Exit.any (Command.runSprint env style rest) := by
  refine Keeps.bind (allows.fixed fun _ => Command.require_respects _ _ _) fun _ => Keeps.guard _ _ ?_
  have renders := allows.fixed fun reference =>
    PrintStyle.render_respects (Fixed.printable reference).toEvaluable env style (Text.cutOrAll ' ' rest).2
  exact Keeps.bind renders fun text => allows.puts allowed text

theorem sets (rest : Text) : Keeps Inv Exit.any (Command.runSet env rest) := by
  refine Keeps.bindEnded (allows.fixed fun _ => Command.storedName_respects _ rest) fun _ _ given named => ?_
  have free : Names.isReserved given.1 = false := Command.storedName_checked _ _ _ _ _ named
  refine Keeps.bind (allows.fixed fun reference =>
    Words.concatenate_respects (Fixed.printable reference).toEvaluable env _ _) fun text => ?_
  exact allows.puts (allows.checked free) _

theorem setsLogical (rest : Text) : Keeps Inv Exit.any (Command.runSetLogical env rest) := by
  refine Keeps.bindEnded (allows.fixed fun _ => Command.storedName_respects _ rest) fun _ _ given named => ?_
  have free : Names.isReserved given.1 = false := Command.storedName_checked _ _ _ _ _ named
  refine Keeps.bind (allows.fixed fun reference => Respects.onError
    (Expr.condition_respects (Fixed.printable reference).toEvaluable env _) fun _ =>
      Command.fail_respects _) fun flag => ?_
  exact allows.puts (allows.checked free) _

theorem unsets (rest : Text) : Keeps Inv Exit.any (Command.runUnset rest : Run σ Unit) := by
  refine Keeps.bind (allows.fixed fun _ => Command.require_respects _ _ _) fun _ => Keeps.forM fun name => ?_
  exact Keeps.change fun _ holds => allows.delete name holds

theorem publishes {rest : Text} (shared : shares rest) : Keeps Inv Exit.any (Command.runPublish rest : Run σ Unit) := by
  refine Keeps.bind (allows.fixed fun _ => Command.require_respects _ _ _) fun _ session holds => ?_
  refine (Meets.read ?_).kept
  cases published : session.store.publish rest with
  | error error => exact Meets.throw holds
  | ok store => exact Meets.change (allows.publish shared published holds)

theorem assigns (line : Text) : Keeps Inv Exit.any (Command.assign env line) := by
  unfold Command.assign
  split
  · exact Keeps.pure _
  dsimp only
  split
  · exact Keeps.pure _
  split
  · refine Keeps.bindEnded (Keeps.fail _) fun session after _ ended => ?_
    change EStateM.Result.error _ _ = _ at ended
    cases ended
  · rename_i passed
    have free := Names.unreserved_of_checkAssigned passed
    refine Keeps.bind (Keeps.pure _) fun _ => Keeps.guard _ _ (Keeps.guard _ _ ?_)
    refine Keeps.bind (allows.fixed fun reference =>
      Expr.valueOf_respects (Fixed.printable reference).toEvaluable env _) fun found => ?_
    refine Keeps.bind (Keeps.ofFault _) fun shown => Keeps.guard _ _ ?_
    exact Keeps.bind (allows.puts (allows.checked free) shown) fun _ => Keeps.pure _

theorem aliased {session : Session σ} (holds : Inv session) {tables : List AliasTable}
    (enough : tables.length = session.frame.loops.length + 1) :
    Inv { session with frame := session.frame.withAliasTables tables } := by
  refine allows.quiet holds rfl rfl ?_
  have same : (session.frame.withAliasTables tables).bound = session.frame.bound :=
    Frame.withAliasTables_view (by intros; rfl) enough
  rw [same]
  exact List.Subset.refl _

theorem writesLine (text : Text) : Keeps Inv Exit.any (Run.writeLine text : Run σ Unit) :=
  allows.fixed fun reference => Respects.writeLine (Fixed.printable reference) text

theorem addsAlias (rest : Text) : Keeps Inv Exit.any (Command.runAlias rest : Run σ Unit) := by
  intro session holds
  refine (Meets.read ?_).kept
  dsimp only
  split
  · have lists : Keeps Inv Exit.any (session.frame.aliasTables.flatten.forM fun entry =>
        Run.writeLine (entry.name ++ "=" ++ entry.value) : Run σ Unit) := Keeps.forM fun entry => allows.writesLine _
    split
    · exact (Keeps.bind (allows.writesLine _) (fun _ => lists) holds).meets
    · exact (lists holds).meets
  · cases Alias.parse rest with
    | error error => exact Meets.throw holds
    | ok entry =>
        refine Meets.change (allows.aliased holds ?_)
        rw [AliasTable.define_length, Frame.aliasTables_length]

theorem removesAlias (rest : Text) : Keeps Inv Exit.any (Command.runUnalias env rest) := by
  refine Keeps.bind (allows.fixed fun _ => Command.require_respects _ _ _) fun _ => Keeps.read fun _ => ?_
  refine Keeps.forM fun name session holds => (Meets.read (Meets.change_bind ?_)).kept
  have enough : (session.frame.aliasTables.map (AliasTable.remove · name)).length = session.frame.loops.length + 1 := by
    rw [List.length_map, Frame.aliasTables_length]
  have removed := allows.aliased holds enough
  split
  · exact (allows.writesLine _ removed).meets
  · exact Meets.pure removed

theorem quits (rest : Text) : Keeps Inv Exit.any (Command.runQuit env rest) := by
  refine Keeps.read fun session => ?_
  dsimp only
  split
  · exact Keeps.pure _
  refine Keeps.check _ trivial ?_
  refine Keeps.bind (allows.fixed fun reference =>
    Words.substitute_respects (Fixed.printable reference).toEvaluable env rest) fun text => ?_
  refine Keeps.bind (Keeps.ofFault _) fun code => ?_
  split
  · exact Keeps.throw trivial
  · exact Keeps.fail _

theorem leavesLoop : Keeps Inv Exit.any (Command.runLeaveLoop : Run σ Unit) := by
  refine Keeps.read fun session => Keeps.guard _ _ (allows.modifyFrame fun frame => ?_)
  have same : (frame.modifyLoop ({ · with mode := .leaving })).bound = frame.bound := by
    cases loops : frame.loops <;> simp [Frame.bound, Frame.modifyLoop, loops, Loop.binds?]
  rw [same]
  exact List.Subset.refl _

end Commands

theorem passesConditions (leaving : Bool) (line : Text) :
    Keeps Inv Exit.any (Interpreter.passConditions env leaving line) := by
  refine Keeps.read fun session => ?_
  dsimp only
  split
  · exact Keeps.pure _
  · exact Keeps.bind (allows.aside fun _ => rfl) fun _ => Keeps.pure _
  · exact Keeps.fail _
  · refine Keeps.bind (Keeps.caught (allows.fixed fun reference =>
      Interpreter.decideCondition_respects (Fixed.printable reference).toEvaluable env _ _)) fun decided => ?_
    exact Keeps.bind (allows.aside fun _ => rfl) fun _ => Keeps.ofExcept (fun _ => trivial) _

theorem opensLoop {header : LoopHeader} (allowed : ∀ name, header.binds? = some name → may name) :
    Keeps Inv Exit.any (Flow.openLoop env header) := by
  refine Keeps.bind (allows.bindsFirst allowed) fun loop => Keeps.read fun session => ?_
  refine Keeps.bind (Keeps.change fun _ holds => ?_) fun _ => Keeps.pure _
  exact allows.quiet holds rfl rfl (List.Subset.refl _)

theorem startsLoop {line : Text}
    (allowed : ∀ header, LoopHeader.parse line = .ok header → ∀ name, header.binds? = some name → may name) :
    Keeps Inv Exit.any (Interpreter.startLoop env line) := by
  refine Keeps.bindEnded (Keeps.ofCause _) fun session after header parsed => ?_
  have read : LoopHeader.parse line = .ok header := by
    cases result : LoopHeader.parse line with
    | error error => simp [result, Run.ofCause, Run.ofExcept, EStateM.throw_apply] at parsed
    | ok found =>
        rw [result] at parsed
        cases parsed
        rfl
  refine Keeps.bind (allows.aside fun _ => rfl) fun _ => ?_
  refine Keeps.bindEnded (allows.opensLoop (allowed header read)) fun session after loop opened => ?_
  have binds : loop.binds? = header.binds? := Flow.openLoop_binds env header _ _ _ opened
  exact Keeps.change fun _ holds => allows.push (binds ▸ allowed header read) holds

end Allows

end CommandScript
