import PrivchatSdk.Lib.Interleave
import PrivchatSdk.MessageContent

/-!
# The installation id and its concurrent creators

A call reads the file of the id.  Where there is none, it writes an id to a temporary
file and links it into place, which at most one call can do; where the file is damaged,
it removes it first.

The removal is decided on an earlier read, and can hit an id that was published since.
In every run in which no removal does, all calls return the id that stands in the file
(`installation_ids_agree`); from a file that is not damaged there is no removal.
-/

namespace PrivchatSdk

open Interleave EventRun

section Model

/-- What stands in the file. -/
inductive IdFile where
  | text (content : String)
  | notUtf8
  deriving DecidableEq, Repr

/-- The id that a call reads off the file; a damaged file has none. -/
def IdFile.id : IdFile → Option String
  | .text content => if trim content = "" then none else some (trim content)
  | .notUtf8 => none

/-- `{:032x}` of a drawn number. -/
def candidateId (n : Nat) : String :=
  String.ofList ((List.range 32).map (fun i => Nat.digitChar (n / 16 ^ (31 - i) % 16)))

/-- Where a call of `read_or_create_installation_id` stands, and the rounds it has left. -/
inductive IdCall where
  | reading (rounds : Nat)
  | removing (rounds : Nat)
  /-- About to write its temporary file. -/
  | creating (rounds : Nat)
  /-- The temporary file is complete. -/
  | linking (rounds : Nat) (candidate : String)
  /-- The link is made; the temporary file is still there. -/
  | linked (candidate : String)
  | returned (id : String)
  | failed
  deriving DecidableEq, Repr

/--
What comes from outside in a step: the drawn number, and whether the file operation
fails for a reason of its own.
-/
structure IdChoice where
  drawn : Nat
  fault : Bool
  deriving DecidableEq, Repr

/--
One file operation of a call.  A temporary file is its call's own, by the number in its
name, and is not seen by the others; a failing removal is ignored.
-/
def idStep (file : Option IdFile) : IdCall → IdChoice → Option IdFile × IdCall
  | .reading 0, _ => (file, .failed)
  | .reading (rounds + 1), choice =>
      if choice.fault then
        (file, .failed)
      else
        match file with
        | none => (file, .creating rounds)
        | some f =>
            match f.id with
            | some id => (file, .returned id)
            | none => (file, .removing rounds)
  | .removing rounds, choice =>
      (if choice.fault then file else none, .creating rounds)
  | .creating rounds, choice =>
      if choice.fault then
        (file, .failed)
      else
        (file, .linking rounds (candidateId choice.drawn))
  | .linking rounds candidate, choice =>
      match file with
      | some _ => (file, .reading rounds)
      | none =>
          if choice.fault then
            (file, .failed)
          else
            (some (.text candidate), .linked candidate)
  | .linked candidate, _ => (file, .returned candidate)
  | .returned id, _ => (file, .returned id)
  | .failed, _ => (file, .failed)

variable {ι : Type}

/-- All calls are at their start. -/
def idCalls (ι : Type) (file : Option IdFile) : Threads ι (Option IdFile) IdCall where
  shared := file
  phase _ := .reading 64

/-- The id that stands in the file. -/
def fileId (file : Option IdFile) : Option String :=
  file.bind IdFile.id

/-- Every id that was returned is the one in the file. -/
def Agreed (c : Threads ι (Option IdFile) IdCall) : Prop :=
  ∀ i id, c.phase i = .returned id → fileId c.shared = some id

/-- A removal finds no id. -/
def RemovesDamage (c : Threads ι (Option IdFile) IdCall) (e : ι × IdChoice) : Prop :=
  ∀ rounds, c.phase e.1 = .removing rounds → e.2.fault = false → fileId c.shared = none

/-- The step leaves a returned id in the file. -/
def KeepsReturned [DecidableEq ι]
    (c : Threads ι (Option IdFile) IdCall) (e : ι × IdChoice) : Prop :=
  ∀ i id, c.phase i = .returned id → fileId c.shared = some id →
    fileId (c.step idStep e).shared = some id

end Model

section Candidates

theorem digitChar_not_white (d : Fin 16) : isWhiteSpace (Nat.digitChar d) = false := by
  revert d
  decide

theorem candidateId_not_white (n : Nat) :
    ∀ c ∈ (candidateId n).toList, isWhiteSpace c = false := by
  intro c hc
  rw [candidateId, String.toList_ofList] at hc
  obtain ⟨i, -, rfl⟩ := List.mem_map.mp hc
  exact digitChar_not_white ⟨n / 16 ^ (31 - i) % 16, Nat.mod_lt _ (by decide)⟩

theorem dropWhile_of_not_white {cs : List Char} (h : ∀ c ∈ cs, isWhiteSpace c = false) :
    cs.dropWhile isWhiteSpace = cs := by
  cases cs with
  | nil =>
      rfl
  | cons c cs =>
      have hc := h c List.mem_cons_self
      simp [hc]

theorem trim_of_not_white {text : String}
    (h : ∀ c ∈ text.toList, isWhiteSpace c = false) : trim text = text := by
  have hreverse : ∀ c ∈ text.toList.reverse, isWhiteSpace c = false :=
    fun c hc => h c (List.mem_reverse.mp hc)
  rw [trim, dropWhile_of_not_white h, dropWhile_of_not_white hreverse,
    List.reverse_reverse, String.ofList_toList]

theorem candidateId_ne_empty (n : Nat) : candidateId n ≠ "" := by
  intro h
  have hlength : (candidateId n).toList.length = 32 := by
    simp [candidateId]
  rw [h] at hlength
  exact absurd hlength (by decide)

/-- A new id is read back as it was written. -/
theorem candidateId_id (n : Nat) :
    (IdFile.text (candidateId n)).id = some (candidateId n) := by
  have htrim := trim_of_not_white (candidateId_not_white n)
  simp only [IdFile.id, htrim]
  exact if_neg (candidateId_ne_empty n)

end Candidates

section Runs

/-- What holds of the file and of one call. -/
def CallInv (file : Option IdFile) : IdCall → Prop
  | .linking _ candidate => (IdFile.text candidate).id = some candidate
  | .linked id => fileId file = some id
  | .returned id => fileId file = some id
  | _ => True

/-- The step of a call keeps what holds of the call itself. -/
theorem callInv_idStep
    {file : Option IdFile} {call : IdCall} (h : CallInv file call) (choice : IdChoice) :
    CallInv (idStep file call choice).1 (idStep file call choice).2 := by
  cases call with
  | reading rounds =>
      cases rounds with
      | zero =>
          trivial
      | succ rounds =>
          simp only [idStep]
          split
          · trivial
          · cases file with
            | none =>
                trivial
            | some f =>
                cases hid : f.id with
                | none =>
                    simp [hid, CallInv]
                | some id =>
                    simp [hid, CallInv, fileId]
  | removing rounds =>
      trivial
  | creating rounds =>
      simp only [idStep]
      split
      · trivial
      · exact candidateId_id choice.drawn
  | linking rounds candidate =>
      cases file with
      | some f =>
          trivial
      | none =>
          simp only [idStep]
          split
          · trivial
          · exact h
  | linked id =>
      exact h
  | returned id =>
      exact h
  | failed =>
      trivial

/-- A step that removes damage only leaves an id in the file. -/
theorem fileId_idStep
    {file : Option IdFile} {call : IdCall} {choice : IdChoice} {id : String}
    (hfile : fileId file = some id)
    (hremoves : ∀ rounds, call = .removing rounds → choice.fault = false →
      fileId file = none) :
    fileId (idStep file call choice).1 = some id := by
  cases call with
  | reading rounds =>
      cases rounds with
      | zero =>
          exact hfile
      | succ rounds =>
          simp only [idStep]
          split
          · exact hfile
          · split
            · exact hfile
            · split
              · exact hfile
              · exact hfile
  | removing rounds =>
      cases hfault : choice.fault with
      | true =>
          simpa [idStep, hfault] using hfile
      | false =>
          rw [hremoves rounds rfl hfault] at hfile
          cases hfile
  | creating rounds =>
      simp only [idStep]
      split
      · exact hfile
      · exact hfile
  | linking rounds candidate =>
      cases file with
      | some f =>
          exact hfile
      | none =>
          cases hfile
  | linked candidate =>
      exact hfile
  | returned candidate =>
      exact hfile
  | failed =>
      exact hfile

variable {ι : Type} [DecidableEq ι]

/-- A step that removes damage only does not interfere with the other calls. -/
theorem callInv_step
    {c : Threads ι (Option IdFile) IdCall} {e : ι × IdChoice}
    (h : ∀ i, CallInv c.shared (c.phase i)) (hremoves : RemovesDamage c e) :
    ∀ i, CallInv (c.step idStep e).shared ((c.step idStep e).phase i) := by
  refine Threads.all_step h e (callInv_idStep (h e.1) e.2) ?_
  intro call hcall
  cases call with
  | linking rounds candidate =>
      exact hcall
  | linked id =>
      exact fileId_idStep hcall hremoves
  | returned id =>
      exact fileId_idStep hcall hremoves
  | _ =>
      trivial

/-- The file is not damaged. -/
def Undamaged (file : Option IdFile) : Prop :=
  ∀ f, file = some f → (f.id).isSome

/-- The file is not damaged, and the call is not about to remove it. -/
def CleanCall (file : Option IdFile) (call : IdCall) : Prop :=
  Undamaged file ∧ (∀ rounds, call ≠ .removing rounds) ∧ CallInv file call

theorem undamaged_idStep
    {file : Option IdFile} {call : IdCall} (h : CleanCall file call) (choice : IdChoice) :
    Undamaged (idStep file call choice).1 := by
  obtain ⟨hfile, hremoving, hcall⟩ := h
  cases call with
  | reading rounds =>
      cases rounds with
      | zero =>
          exact hfile
      | succ rounds =>
          simp only [idStep]
          split
          · exact hfile
          · split
            · exact hfile
            · split
              · exact hfile
              · exact hfile
  | removing rounds =>
      exact absurd rfl (hremoving rounds)
  | creating rounds =>
      simp only [idStep]
      split
      · exact hfile
      · exact hfile
  | linking rounds candidate =>
      cases file with
      | some f =>
          exact hfile
      | none =>
          simp only [idStep]
          split
          · exact hfile
          · rintro f ⟨⟩
            exact Option.isSome_of_eq_some hcall
  | linked candidate =>
      exact hfile
  | returned candidate =>
      exact hfile
  | failed =>
      exact hfile

theorem not_removing_idStep
    {file : Option IdFile} {call : IdCall} (h : CleanCall file call) (choice : IdChoice)
    (rounds : Nat) : (idStep file call choice).2 ≠ .removing rounds := by
  obtain ⟨hfile, -, -⟩ := h
  intro hnext
  cases call with
  | reading left =>
      cases left with
      | zero =>
          cases hnext
      | succ left =>
          simp only [idStep] at hnext
          split at hnext
          · cases hnext
          · cases file with
            | none =>
                cases hnext
            | some f =>
                obtain ⟨id, hid⟩ := Option.isSome_iff_exists.mp (hfile f rfl)
                simp [hid] at hnext
  | creating left =>
      simp only [idStep] at hnext
      split at hnext
      · cases hnext
      · cases hnext
  | linking left candidate =>
      cases file with
      | some f =>
          cases hnext
      | none =>
          simp only [idStep] at hnext
          split at hnext
          · cases hnext
          · cases hnext
  | _ =>
      cases hnext

theorem cleanCall_step
    {c : Threads ι (Option IdFile) IdCall} (h : ∀ i, CleanCall c.shared (c.phase i))
    (e : ι × IdChoice) :
    ∀ i, CleanCall (c.step idStep e).shared ((c.step idStep e).phase i) := by
  have hfile := undamaged_idStep (h e.1) e.2
  have hremoves : RemovesDamage c e :=
    fun rounds hrounds _ => absurd hrounds ((h e.1).2.1 rounds)
  have hinv := callInv_step (fun i => (h i).2.2) hremoves
  intro i
  refine ⟨hfile, ?_, hinv i⟩
  by_cases hi : i = e.1
  · subst hi
    rw [Threads.step_phase_self]
    exact not_removing_idStep (h e.1) e.2
  · rw [Threads.step_phase_of_ne e hi]
    exact (h i).2.1

/--
In every run in which a removal hits damage only, the calls that returned have the id
that stands in the file, and it stays there.  If the file is not damaged in the
beginning, every run is such.
-/
theorem installation_ids_agree
    {ι : Type} [DecidableEq ι] (file : Option IdFile) (es : List (ι × IdChoice)) :
    (Guarded (Threads.step idStep) RemovesDamage (idCalls ι file) es →
      Agreed (run (Threads.step idStep) (idCalls ι file) es) ∧
        Guarded (Threads.step idStep) KeepsReturned (idCalls ι file) es) ∧
    (Undamaged file → Guarded (Threads.step idStep) RemovesDamage (idCalls ι file) es) := by
  have hstart : ∀ i, CallInv (idCalls ι file).shared ((idCalls ι file).phase i) :=
    fun _ => trivial
  constructor
  · intro hguarded
    constructor
    · have hend := hguarded.invariant (fun c => ∀ i, CallInv c.shared (c.phase i))
        (fun c e hc he => callInv_step hc he) hstart
      intro i id hreturned
      have hi := hend i
      rwa [hreturned] at hi
    · refine hguarded.entails (fun _ => True) ?_ trivial
      intro c e _ hremoves
      exact ⟨trivial, fun i id _ hid => fileId_idStep hid hremoves⟩
  · intro hfile
    have hclean : ∀ i, CleanCall (idCalls ι file).shared ((idCalls ι file).phase i) :=
      fun i => ⟨hfile, fun rounds => IdCall.noConfusion, hstart i⟩
    refine guarded_of_invariant (fun c => ∀ i, CleanCall c.shared (c.phase i)) ?_ hclean es
    intro c e hc
    exact ⟨cleanCall_step hc e, fun rounds hrounds _ => absurd hrounds ((hc e.1).2.1 rounds)⟩

/-- Two calls find an empty file; the second removes the id that the first returned. -/
theorem installation_id_removed :
    let c := run (Threads.step idStep) (idCalls Bool (some (.text "")))
      [(true, ⟨0, false⟩), (false, ⟨0, false⟩), (true, ⟨0, false⟩), (true, ⟨1, false⟩),
        (true, ⟨0, false⟩), (true, ⟨0, false⟩), (false, ⟨0, false⟩), (false, ⟨2, false⟩),
        (false, ⟨0, false⟩), (false, ⟨0, false⟩)]
    c.phase true = .returned "00000000000000000000000000000001" ∧
      c.phase false = .returned "00000000000000000000000000000002" ∧
      c.shared = some (.text "00000000000000000000000000000002") := by
  decide +kernel

end Runs

end PrivchatSdk
