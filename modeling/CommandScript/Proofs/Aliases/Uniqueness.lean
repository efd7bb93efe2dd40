import CommandScript.Proofs.Aliases.Tables
import CommandScript.Proofs.Course.Lines
import CommandScript.Proofs.Scoping.Watching

/-! Alias names stay unique: at every statement of every run, the aliases of a script and of its open loops have
different names, whatever their case. So the order of the tables decides nothing, and a name whose aliases are removed
has none left. -/

namespace CommandScript

variable {σ Log : Type}

open Run Interpreter

theorem Course.unambiguous {env : Env σ} {log : σ → Log} {floor : Nat} {before after : Session σ}
    (course : Course env log floor before after) (apart : before.Unambiguous) : after.Unambiguous := by
  have kept {before after : Session σ} (frame : after.frame = before.frame) (callers : after.callers = before.callers)
      (apart : before.Unambiguous) : after.Unambiguous := by
    unfold Session.Unambiguous
    rw [frame, callers]
    exact apart
  induction course with
  | refl floor session => exact apart
  | trans _ _ one two => exact two (one apart)
  | move change callers _ =>
      intro frame member
      rw [callers] at member
      rcases List.mem_cons.mp member with rfl | waits
      · exact change.unambiguous (apart _ List.mem_cons_self)
      · exact apart frame (List.mem_cons_of_mem _ waits)
  | refused told =>
      obtain ⟨frame, callers⟩ := emit_frame (Run.leaves_error told)
      exact kept frame callers apart
  | line told _ _ closes runs =>
      obtain ⟨frame, callers⟩ := emit_frame (Run.leaves_ok told)
      exact kept closes.frame.1 closes.frame.2 (runs (kept frame callers apart))
  | file _ _ _ _ _ frame callers _ _ => exact kept frame callers apart

theorem Session.Unambiguous.lasting (env : Env σ) (log : σ → Log) : Lasting env log Session.Unambiguous where
  along apart course := course.unambiguous apart
  told apart frame callers := by
    unfold Session.Unambiguous
    rw [frame, callers]
    exact apart
  enters apart loops aliases waits := by
    rw [Session.Unambiguous, waits]
    intro frame member
    rcases List.mem_cons.mp member with rfl | inside
    · simp [Frame.Unambiguous, Frame.aliasTables, AliasTable.names, loops, aliases]
    · exact apart frame inside

instance : Session.Stable (Session.Unambiguous : Session σ → Prop) where
  within apart kept := by
    unfold Session.Unambiguous
    rw [kept.frame, kept.callers]
    exact apart

theorem Session.modifyRoot_tables {f : Frame → Frame} (same : ∀ frame, (f frame).aliasTables = frame.aliasTables)
    (session : Session σ) :
    ((session.modifyRoot f).frame :: (session.modifyRoot f).callers).map Frame.aliasTables =
      (session.frame :: session.callers).map Frame.aliasTables := by
  unfold Session.modifyRoot
  split
  · simp only [List.map_cons, same]
  · rename_i root rest reversed
    rw [List.reverse_eq_iff.mp reversed]
    simp only [List.map_cons, List.map_reverse, same]

theorem Session.unambiguous_iff {session : Session σ} :
    session.Unambiguous ↔
      ∀ tables ∈ (session.frame :: session.callers).map Frame.aliasTables, (AliasTable.names tables).Nodup := by
  simp only [Session.Unambiguous, Frame.Unambiguous, List.forall_mem_map]

theorem Session.Unambiguous.persists (env : Env σ) : Persists env Session.Unambiguous where
  redepth _ _ apart := apart
  counts session apart := by
    have tables := session.modifyRoot_tables fun root : Frame =>
      (rfl : Frame.aliasTables { root with line := root.line + 1 } = _)
    rw [Session.unambiguous_iff, tables]
    exact Session.unambiguous_iff.mp apart
  stops session code apart := Session.Stable.within apart (session.stop_local code)
  reports error := Report.add_confined env error
  warns text := Keeps.report text

def ambiguous (_ after : Session σ) : Bool := !decide after.Unambiguous

namespace Interpreter

theorem objecting_passes {program : Run σ Unit} {objects : Session σ → Session σ → Bool} {before session : Session σ}
    (fine : objects before (program.leaves session) = false) :
    Run.always program (objecting objects before) session = program session := by
  unfold Run.leaves at fine
  simp only [Run.always, bind, EStateM.bind, Run.attempt]
  cases ran : program session with
  | ok value after | error exit after =>
      rw [ran] at fine
      simp only [objecting, bind, EStateM.bind, EStateM.get_apply, fine]
      rfl

/-- A watch that objects to nothing that a statement does makes no difference to it. -/
theorem unobjected_statement {objects : Session σ → Session σ → Bool} {program : Run σ Unit} {session : Session σ}
    {text : Text} (fine : objects session (program.leaves session) = false) :
    (do
      let session ← get
      if (due? session text).any (fun _ => false) then throw .exhausted
      else Run.always program (objecting objects session) : Run σ Unit) session = program session := by
  simp only [Option.any_false, Bool.false_eq_true, ↓reduceIte]
  exact objecting_passes fine

theorem watched_tracks (env : Env σ) (log : σ → Log) [env.Silent log] (depth : Nat) (text : Text) :
    Tracks env log Session.Unambiguous (execLine env depth text)
      (watched env (fun _ _ => false) ambiguous depth text) := by
  have lasting := Session.Unambiguous.lasting env log
  induction depth generalizing text with
  | zero => exact .of_keeps fun _ _ => Keeps.throw trivial
  | succ depth ih =>
      refine .of_follows fun floor start grounded apart => ?_
      refine Follows.next (Keeps.ofMalformed _) fun texts => Follows.forM fun text session course => ?_
      obtain ⟨same, kept⟩ := (statement_tracks lasting ih text).follows lasting grounded apart course
      refine ⟨?_, kept⟩
      have reached := kept.meets.leaves.unambiguous apart
      rw [← same]
      refine unobjected_statement ?_
      rw [Run.leaves, same, ← Run.leaves, ambiguous, decide_eq_true reached]
      rfl

/-- The names that a text removes, if its statement is due. -/
def unaliased (session : Session σ) (text : Text) : List Text :=
  match due? session text with
  | some line =>
      if commandOf? line = some .removeAlias then Text.words (Text.trim (Text.cutOrAll ' ' line).2) else []
  | none => []

theorem unalias_plain {line : Text} (known : commandOf? line = some .removeAlias) :
    Flow.isForeach line = false ∧ Flow.isEndfor line = false := by
  have word : Text.lower (Text.cutOrAll ' ' line).1 = "unalias" := by
    unfold commandOf? at known
    split at known
    · cases known
    · obtain ⟨before, after, whole, _⟩ := List.lookup_eq_some_iff.mp known
      have member : (Text.lower (Text.cutOrAll ' ' line).1, Command.removeAlias) ∈ Command.table := by
        rw [whole]
        simp
      simpa [Command.table] using member
  obtain ⟨c, more, first⟩ : ∃ c more, (Text.cutOrAll ' ' line).1 = c :: more :=
    List.exists_cons_of_ne_nil fun empty => by rw [empty] at word; cases word
  obtain ⟨rest, rfl⟩ : ∃ rest, line = c :: rest := by
    unfold Text.cutOrAll at first
    cases found : Text.cut? ' ' line with
    | none => exact ⟨more, by simpa [found] using first⟩
    | some sides =>
        obtain ⟨before, after⟩ := sides
        obtain rfl : before = c :: more := by simpa [found] using first
        exact ⟨_, Text.cut?_append found⟩
  have starts : Flow.leads 'u' (c :: rest) := by
    rw [first] at word
    rw [Flow.leads, Text.lower_head, ← Text.lower_head c more, word]
    rfl
  have trimmed : Text.trimLeft (c :: rest) = c :: rest := by
    have visible : Text.isBlank c = false := Bool.eq_false_iff.mpr fun blank => by
      have same := (Text.lower_head c rest).trans (Text.lower_blank blank)
      cases starts.symm.trans same
      revert blank
      decide
    rw [Text.trimLeft, List.dropWhile_cons_of_neg (by simp [visible])]
  refine ⟨Flow.not_isForeach_of_leads trimmed starts (by decide), Bool.eq_false_iff.mpr fun ends => ?_⟩
  have other : Flow.leads 'e' (c :: rest) := Flow.leads_of_isWordLine rfl ends
  cases Flow.leads_unique starts other

end Interpreter

/-- The running script's aliases have different names, and some names have none. -/
structure Session.Cleared (names : List Text) (session : Session σ) : Prop where
  apart : session.frame.Unambiguous
  lacks : ∀ name ∈ names, AliasTable.Lacks session.frame.aliasTables name

instance (names : List Text) : Session.Stable (Session.Cleared names : Session σ → Prop) where
  within cleared kept := ⟨kept.frame ▸ cleared.apart, kept.frame ▸ cleared.lacks⟩

theorem Session.Cleared.subset {names others : List Text} {session : Session σ} (cleared : session.Cleared others)
    (fewer : names ⊆ others) : session.Cleared names :=
  ⟨cleared.apart, fun name member => cleared.lacks name (fewer member)⟩

namespace Interpreter

theorem removeName_cleared (tells : Bool) {session : Session σ} {names : List Text} (cleared : session.Cleared names)
    (name : Text) :
    Meets (fun _ after => after.Cleared (name :: names)) (fun _ _ => True)
      (Command.removeName tells name) session := by
  have removed : Session.Cleared (name :: names)
      { session with
        frame := session.frame.withAliasTables (session.frame.aliasTables.map (AliasTable.remove · name)) } := by
    have tables := Frame.aliasTables_withAliasTables (session.frame.remove_length name)
    refine ⟨(show session.frame.Change 0 _ from .remove name).unambiguous cleared.apart, fun other member => ?_⟩
    rw [tables]
    rcases List.mem_cons.mp member with rfl | before
    · exact AliasTable.remove_lacks cleared.apart other
    · exact fun still => cleared.lacks other before ((AliasTable.remove_names name _).subset still)
  cases tells with
  | true =>
      have writes (text : Text) : Keeps (Session.Cleared (name :: names)) Exit.any (Run.writeLine text : Run σ Unit) :=
        Keeps.writeLine text
      exact (writes _ removed).meets.mono (fun _ _ => id) fun _ _ _ => trivial
  | false => exact Meets.pure removed

theorem removesAll_cleared (tells : Bool) (names : List Text) {cleared : List Text} {session : Session σ}
    (already : session.Cleared cleared) :
    Meets (fun _ after => after.Cleared (names ++ cleared)) (fun _ _ => True)
      (names.forM (Command.removeName tells)) session := by
  induction names generalizing cleared session with
  | nil => exact Meets.pure already
  | cons name rest ih =>
      refine Meets.bind (removeName_cleared tells already name) fun _ _ both => ?_
      refine (ih both).mono (fun _ _ all => all.subset ?_) fun _ _ => id
      simp

theorem runUnalias_clears (env : Env σ) (rest : Text) {session : Session σ} (apart : session.frame.Unambiguous) :
    Meets (fun _ after => after.Cleared (Text.words rest)) (fun _ _ => True) (Command.runUnalias env rest) session := by
  have required : Keeps (Session.Cleared []) Exit.any (Command.require rest "unalias" "arguments" : Run σ Unit) :=
    Command.require_confined _ _ _
  rw [Command.runUnalias_eq]
  refine Meets.bind ((required ⟨apart, nofun⟩).meets.mono (fun _ _ => id) fun _ _ _ => trivial)
    fun _ reached clear => ?_
  refine Meets.read ((removesAll_cleared _ (Text.words rest) clear).mono (fun _ _ all => all.subset ?_) fun _ _ => id)
  simp

theorem statement_clears (env : Env σ) (exec : Text → Run σ Unit) (text : Text) {session : Session σ}
    (apart : session.frame.Unambiguous) :
    Meets (fun _ after => ∀ name ∈ unaliased session text, AliasTable.Lacks after.frame.aliasTables name)
      (fun _ _ => True) (statement env exec text) session := by
  unfold unaliased
  cases due : due? session text with
  | none => exact Meets.any.mono (fun _ _ _ => nofun) fun _ _ _ => trivial
  | some line =>
      dsimp only
      split
      · rename_i known
        obtain ⟨notForeach, notEndfor⟩ := unalias_plain known
        refine Meets.of_eq ((statement_due env exec due).trans ?_) ((runUnalias_clears env _ apart).mono
          (fun _ _ cleared => cleared.lacks) fun _ _ => id)
        unfold commandOf? at known
        split at known
        · cases known
        · rename_i notShell
          simp only [runStatement, notForeach, notEndfor, notShell, known, Bool.false_eq_true, ↓reduceIte]
          rfl
      · exact Meets.any.mono (fun _ _ _ => nofun) fun _ _ _ => trivial

/-- Alias names are unique, and what is removed is gone. In a run of any lines, texts and script files from the
start of a session, every frame has different names for its aliases and those of its open loops: so it is at the
end, and a run that stops after any statement that leaves it otherwise comes to the same. Where it is so, a line
becomes the same whatever the order of the tables, and a statement that removes aliases leaves none for any of
the names in its argument. -/
theorem aliases_unique (env : Env σ) (options : Options) (host : σ) (files : FileTree) (depth : Nat)
    (requests : List Request) :
    ((answers env depth requests).leaves (Session.start options host files)).Unambiguous ∧
      answersBy env (watched env (fun _ _ => false) ambiguous depth) requests (Session.start options host files) =
        answers env depth requests (Session.start options host files) ∧
      ∀ session : Session σ, session.Unambiguous →
        (∀ frame ∈ session.frame :: session.callers, ∀ tables : List AliasTable, tables.Perm frame.aliasTables →
          ∀ line, AliasTable.apply tables line = AliasTable.apply frame.aliasTables line) ∧
        ∀ (exec : Text → Run σ Unit) (text : Text) (after : Session σ), statement env exec text session = .ok () after →
          ∀ name ∈ unaliased session text, AliasTable.Lacks after.frame.aliasTables name := by
  have lasting := Session.Unambiguous.lasting env fun _ : σ => ()
  have lines := watched_tracks env (fun _ : σ => ()) depth
  have bottom {session : Session σ} {program other : Run σ Unit}
      (tracks : Tracks env (fun _ => ()) Session.Unambiguous program other) (apart : session.Unambiguous) :
      Alike Session.Unambiguous program other session :=
    (tracks 0 (.bottom session) apart).mono fun _ course => course.unambiguous apart
  have follows : Follows Session.Unambiguous (answersBy env (execLine env depth) requests)
      (answersBy env (watched env (fun _ _ => false) ambiguous depth) requests) :=
    (Session.Unambiguous.persists env).answersFollow
      (fun text _ apart => bottom (runLine_tracks lasting lines text) apart)
      (fun target _ apart => bottom (parseFile_tracks lasting lines target) apart) requests
  have starts : (Session.start options host files).Unambiguous := by
    simp [Session.Unambiguous, Session.start, Frame.Unambiguous, Frame.aliasTables, AliasTable.names]
  obtain ⟨same, kept⟩ := follows starts
  rw [answersBy_execLine] at same kept
  refine ⟨kept.meets.leaves, same, fun session apart => ⟨fun frame member tables perm line => ?_, ?_⟩⟩
  · exact AliasTable.apply_perm (apart frame member) perm line
  · intro exec text after ended
    exact (statement_clears env exec text (apart session.frame List.mem_cons_self)).ended ended

/-- In a loop that is being replayed, an alias of the script and one of the loop are removed, and the order of the two
tables does not matter before that. -/
theorem loopAliases_removed :
    let env : Env Unit := {}
    let loop : Loop := { name := "i", source := .range 1 1 1, mode := .replaying, aliases := [⟨"say", "print"⟩] }
    let session : Session Unit :=
      { Session.start {} () with frame := { aliases := [⟨"go", "echo"⟩], loops := [loop] } }
    session.Unambiguous ∧
      AliasTable.apply [loop.aliases, session.frame.aliases] "Go; say x" = ("echo; print x" : Text) ∧
      AliasTable.apply session.frame.aliasTables "Go; say x" = ("echo; print x" : Text) ∧
      unaliased session "unalias Go SAY" = [("Go" : Text), ("SAY" : Text)] ∧
      ∃ after, statement env (execLine env 1) "unalias Go SAY" session = .ok () after ∧
        AliasTable.Lacks after.frame.aliasTables "Go" ∧ AliasTable.Lacks after.frame.aliasTables "SAY" := by
  intro env loop session
  have apart : session.Unambiguous := by decide
  have names : unaliased session "unalias Go SAY" = [("Go" : Text), ("SAY" : Text)] := by decide +kernel
  have order : AliasTable.apply session.frame.aliasTables "Go; say x" = ("echo; print x" : Text) := by decide +kernel
  obtain ⟨-, -, settled⟩ := aliases_unique env {} () {} 1 [.line "alias go=echo"]
  obtain ⟨ordered, removed⟩ := settled session apart
  let after := (statement env (execLine env 1) "unalias Go SAY").leaves session
  have ended : statement env (execLine env 1) "unalias Go SAY" session = .ok () after := Run.ends_ok (by decide +kernel)
  have gone := removed (execLine env 1) "unalias Go SAY" after ended
  rw [names] at gone
  refine ⟨apart, (ordered session.frame List.mem_cons_self _ (List.Perm.swap _ _ _) _).trans order, order, names, ?_⟩
  exact ⟨after, ended, gone "Go" (by simp), gone "SAY" (by simp)⟩

/-- A name may have blanks, but no argument of a removal has. -/
theorem spacedName_stays :
    ¬∀ name : Text, AliasTable.Lacks
      ((answers ({} : Env Unit) 2 [.line ("alias " ++ name ++ "=c"), .line ("unalias " ++ name)]).leaves
        (Session.start {} ())).frame.aliasTables name :=
  fun lacks => lacks "a b" (by decide +kernel)

end Interpreter

end CommandScript
