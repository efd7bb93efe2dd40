import CommandScript.Command.Basic
import CommandScript.Proofs.Confinement.Evaluation

/-! What is written to a file that was emptied when it was opened. Bytes reach the tree in blocks, but what is in the
tree and what waits in the buffer make up all that has been written, in order. -/

namespace CommandScript

variable {σ : Type}

namespace FileTree

theorem lookup_map (files : List (Location × List UInt8)) (place : Location) (contents : List UInt8) :
    (files.map fun (p, old) => (p, if p = place then contents else old)).lookup place =
      (files.lookup place).map fun _ => contents := by
  induction files with
  | nil => rfl
  | cons file rest ih =>
      obtain ⟨p, old⟩ := file
      rw [List.map_cons, List.lookup_cons, List.lookup_cons, ih]
      by_cases same : place = p
      · simp [same]
      · simp [beq_eq_false_iff_ne.mpr same]

theorem contents_put (tree : FileTree) (place : Location) (contents : List UInt8) :
    (tree.put place contents).contents place = contents := by
  rw [put, FileTree.contents]
  cases found : tree.files.lookup place with
  | some old => simp [isFile, found, lookup_map]
  | none => simp [isFile, found, List.lookup_append]

end FileTree

namespace Handle

/-- A file that was emptied when it was opened: what is in the tree and what waits in the buffer are the bytes that have
been written. -/
structure Holds (handle : Handle) (tree : FileTree) (bytes : List UInt8) : Prop where
  truncates : handle.appends = false
  noText : handle.pending = #[]
  atEnd : handle.position = (tree.contents handle.place).length
  whole : tree.contents handle.place ++ handle.buffer.toList = bytes

theorem store_atEnd {handle : Handle} {tree : FileTree} (truncates : handle.appends = false)
    (atEnd : handle.position = (tree.contents handle.place).length) (bytes : List UInt8) :
    (handle.store bytes tree).1 =
        { handle with position := ((handle.store bytes tree).2.contents handle.place).length } ∧
      (handle.store bytes tree).2.contents handle.place = tree.contents handle.place ++ bytes := by
  cases bytes with
  | nil =>
      refine ⟨?_, (List.append_nil _).symm⟩
      change handle = { handle with position := (tree.contents handle.place).length }
      rw [← atEnd]
  | cons byte rest => simp [store, truncates, atEnd, FileTree.contents_put]

namespace Holds

variable {handle : Handle} {tree : FileTree} {bytes : List UInt8}

theorem openIn {before : FileTree} {path : Text} {append : Bool}
    (opened : Handle.openIn before path append = .ok (handle, tree))
    (truncates : handle.appends = false) : handle.Holds tree [] := by
  unfold Handle.openIn at opened
  split at opened
  · dsimp only at opened
    split at opened
    · split at opened <;> cases opened
    · cases opened
  · cases opened
  · cases opened
  · cases opened
    exact ⟨truncates, rfl, by rw [FileTree.contents_put]; rfl, by rw [FileTree.contents_put]; rfl⟩
  · cases opened
    obtain rfl : append = false := truncates
    exact ⟨rfl, rfl, by rw [if_neg nofun, FileTree.contents_put]; rfl, by rw [if_neg nofun, FileTree.contents_put]; rfl⟩

theorem flush (holds : handle.Holds tree bytes) :
    (handle.flush tree).1.Holds (handle.flush tree).2 bytes ∧ (handle.flush tree).1.place = handle.place ∧
      (handle.flush tree).1.buffer = #[] := by
  obtain ⟨truncates, noText, atEnd, whole⟩ := holds
  obtain ⟨moved, contents⟩ := store_atEnd truncates atEnd handle.buffer.toList
  dsimp only [Handle.flush]
  rw [moved]
  exact ⟨⟨truncates, noText, rfl, by rw [contents]; simpa using whole⟩, rfl, rfl⟩

theorem write (holds : handle.Holds tree bytes) (more : List UInt8) :
    (handle.write more tree).1.Holds (handle.write more tree).2 (bytes ++ more) ∧
      (handle.write more tree).1.place = handle.place := by
  rw [Handle.write]
  split
  · obtain ⟨truncates, noText, atEnd, rfl⟩ := holds
    exact ⟨⟨truncates, noText, atEnd, by simp⟩, rfl⟩
  · obtain ⟨⟨truncates, noText, atEnd, whole⟩, place, empty⟩ := holds.flush
    dsimp only
    generalize (handle.flush tree).1 = emptied at truncates noText atEnd whole place empty ⊢
    generalize (handle.flush tree).2 = flushed at atEnd whole ⊢
    rw [empty, List.append_nil] at whole
    subst whole
    split
    · obtain ⟨moved, contents⟩ := store_atEnd truncates atEnd more
      rw [moved]
      exact ⟨⟨truncates, noText, rfl, by rw [empty, contents]; exact List.append_nil _⟩, place⟩
    · exact ⟨⟨truncates, noText, atEnd, by simp⟩, place⟩

theorem close (holds : handle.Holds tree bytes) : (handle.close tree).contents handle.place = bytes := by
  obtain ⟨released, place⟩ := holds.write []
  have waiting : handle.release tree = handle.write [] tree := by
    have same : { handle with pending := #[] } = handle := by rw [← holds.noText]
    rw [Handle.release, same, holds.noText]
  obtain ⟨⟨-, -, -, whole⟩, still, empty⟩ := released.flush
  rw [empty, still, place] at whole
  rw [Handle.close, waiting]
  simpa using whole

end Holds

end Handle

namespace Session

/-- The write file is at a place, and bytes have been written to it since it was opened. -/
def HasWritten (session : Session σ) (place : Location) (bytes : List UInt8) : Prop :=
  ∃ handle, session.writeFile = some handle ∧ handle.place = place ∧ handle.Holds session.files bytes

variable {session : Session σ} {place : Location} {bytes : List UInt8}

theorem writeBytes_frame (session : Session σ) (bytes : List UInt8) :
    (session.writeBytes bytes).frame = session.frame := by
  rw [Session.writeBytes]
  cases session.writeFile <;> rfl

theorem writeBytes_depth (session : Session σ) (bytes : List UInt8) :
    (session.writeBytes bytes).depth = session.depth := by
  rw [Session.writeBytes]
  cases session.writeFile <;> rfl

theorem HasWritten.writeBytes (written : session.HasWritten place bytes) (more : List UInt8) :
    (session.writeBytes more).HasWritten place (bytes ++ more) := by
  obtain ⟨handle, opened, rfl, holds⟩ := written
  obtain ⟨kept, same⟩ := holds.write more
  exact ⟨_, by rw [Session.writeBytes, opened], same, by rw [Session.writeBytes, opened]; exact kept⟩

theorem HasWritten.closeWrite (written : session.HasWritten place bytes) :
    session.closeWrite.files.contents place = bytes := by
  obtain ⟨handle, opened, rfl, holds⟩ := written
  rw [Session.closeWrite, opened]
  exact holds.close

end Session

theorem Command.runWriteOpen_hasWritten {env : Env σ} {rest : Text} {session after : Session σ}
    (opened : Command.runWriteOpen env rest session = .ok () after)
    (truncates : ∀ handle ∈ after.writeFile, handle.appends = false) : ∃ place, after.HasWritten place [] := by
  obtain ⟨⟨path, append⟩, middle, -, opened⟩ := Run.bind_ended opened
  obtain ⟨_, closed, -, opened⟩ := Run.bind_ended opened
  obtain ⟨handle, last, found, opened⟩ := Run.bind_ended opened
  cases opened
  obtain ⟨_, checked, -, found⟩ := Run.bind_ended found
  cases tried : Handle.openIn checked.files path append with
  | error error =>
      simp only [bind, EStateM.bind, EStateM.get_apply, tried] at found
      cases found
  | ok result =>
      simp only [bind, EStateM.bind, EStateM.get_apply, tried] at found
      cases found
      exact ⟨result.1.place, result.1, rfl, rfl, .openIn tried (truncates _ rfl)⟩

end CommandScript
