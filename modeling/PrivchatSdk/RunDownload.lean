import PrivchatSdk.Lib.Inodes
import PrivchatSdk.Lib.Interleave
import PrivchatSdk.SealedCache

/-!
# The download of one file, with resume

A run appends to the partial file that an earlier run left, if the server sends the
rest, and starts over, if it sends everything.  A complete body is renamed into place,
or decrypted into a second temporary file that is renamed into place.

Runs of one file share the names.  A run that was cancelled goes on to its next await
point, so that two runs can write one file; and the rest of a complete partial file is
a range that the server refuses.  Without these two the final file is always right, and
a run that nothing interrupts succeeds (`run_download_publishes`).
-/

namespace PrivchatSdk
namespace Download

open EventRun Interleave Inodes Sealing

section Model

def decryptDownloadedAttachmentBytes (lib : SealingLib) (encryptionVersion : Int)
    (cek : Option String) (blob : Bytes) : Except String Bytes :=
  if encryptionVersion = 0 then
    .ok blob
  else if encryptionVersion = 1 then
    match cek.filter (· ≠ "") with
    | none => .error "encryption_version=1 but cek missing"
    | some cek => decryptAttachment lib blob cek
  else
    .error ("unsupported encryption_version: " ++ toString encryptionVersion)

/-- The file in its place, `<payload>.part`, and `<stem>.decrypted.part`. -/
inductive DownloadFile where
  | final
  | part
  | decryptedPart
  deriving DecidableEq, Repr

/--
The body at the server and the ticket.  The two temporary names are one, if the
payload's extension is `decrypted`.
-/
structure DownloadEnv where
  lib : SealingLib
  body : Bytes
  encryptionVersion : Int
  cek : Option String
  sharedPart : Bool

def DownloadEnv.decryptedPart (env : DownloadEnv) : DownloadFile :=
  if env.sharedPart then .part else .decryptedPart

def DownloadEnv.decrypt (env : DownloadEnv) (blob : Bytes) : Except String Bytes :=
  decryptDownloadedAttachmentBytes env.lib env.encryptionVersion env.cek blob

/-- What the final file is to hold, if the body can be decrypted. -/
def DownloadEnv.plain (env : DownloadEnv) : Option Bytes :=
  (env.decrypt env.body).toOption

abbrev DownloadDisk := Disk DownloadFile UInt8

/-- Where `run_download` stands. -/
inductive DownloadPhase where
  | idle
  /-- Looks whether the final file is there. -/
  | checking
  | statting
  | requesting (startOffset : Nat)
  /-- Has an answer, with the bytes that come in it. -/
  | opening (append : Bool) (rest : Bytes)
  | receiving (h : Handle) (rest : Bytes)
  | moving
  | readingPart
  /-- The blob cannot be decrypted. -/
  | removingBad
  | openingDecrypted (plaintext : Bytes)
  | writingDecrypted (h : Handle) (plaintext : Bytes)
  | movingDecrypted
  | removingPart
  | done
  | failed
  deriving DecidableEq, Repr

/-- The server's answer to a request: whether it is a 206, and its bytes. -/
def serverAnswer (env : DownloadEnv) (startOffset : Nat) (ranged : Bool) :
    Option (Bool × Bytes) :=
  if startOffset = 0 ∨ ranged = false then
    some (false, env.body)
  else if startOffset < env.body.length then
    some (true, env.body.drop startOffset)
  else
    none

inductive DownloadStep where
  | start
  /-- The next step; whether the server honours a range, and how many bytes are ready. -/
  | go (ranged : Bool) (count : Nat)
  /-- The step's own operation fails. -/
  | fault
  /-- The run stops here: it is dropped, or the process ends. -/
  | stop
  deriving DecidableEq, Repr

def DownloadPhase.Active (p : DownloadPhase) : Prop :=
  p ≠ .idle ∧ p ≠ .done ∧ p ≠ .failed

instance (p : DownloadPhase) : Decidable p.Active :=
  inferInstanceAs (Decidable (_ ∧ _ ∧ _))

/-- The next step of a run. -/
def goStep (env : DownloadEnv) (d : DownloadDisk) (ranged : Bool) (count : Nat) :
    DownloadPhase → DownloadDisk × DownloadPhase
  | .idle => (d, .idle)
  | .checking => (d, if (d.read .final).isSome then .done else .statting)
  | .statting => (d, .requesting ((d.read .part).getD []).length)
  | .requesting startOffset =>
      match serverAnswer env startOffset ranged with
      | none => (d, .failed)
      | some (gotRange, rest) => (d, .opening (gotRange && decide (0 < startOffset)) rest)
  | .opening append rest =>
      let opened := if append then d.openAppend .part else d.openTruncate .part
      (opened.1, .receiving opened.2 rest)
  | .receiving h rest =>
      match rest with
      | [] => (d, if env.encryptionVersion = 0 then .moving else .readingPart)
      | _ :: _ =>
          let written := d.write h (rest.take (max count 1))
          (written.1, .receiving written.2 (rest.drop (max count 1)))
  | .moving =>
      match d.rename .part .final with
      | none => (d, .failed)
      | some d' => (d', .done)
  | .readingPart =>
      match d.read .part with
      | none => (d, .failed)
      | some blob =>
          match env.decrypt blob with
          | .error _ => (d, .removingBad)
          | .ok plaintext => (d, .openingDecrypted plaintext)
  | .removingBad => (d.remove .part, .failed)
  | .openingDecrypted plaintext =>
      let opened := d.openTruncate env.decryptedPart
      (opened.1, .writingDecrypted opened.2 plaintext)
  | .writingDecrypted h plaintext => ((d.write h plaintext).1, .movingDecrypted)
  | .movingDecrypted =>
      match d.rename env.decryptedPart .final with
      | none => (d.remove env.decryptedPart, .failed)
      | some d' => (d', .removingPart)
  | .removingPart => (d.remove .part, .done)
  | .done => (d, .done)
  | .failed => (d, .failed)

/-- What a run does when an operation fails. -/
def faultStep (env : DownloadEnv) (d : DownloadDisk) :
    DownloadPhase → DownloadDisk × DownloadPhase
  | .idle => (d, .idle)
  | .checking => (d, .statting)
  | .statting => (d, .requesting 0)
  | .openingDecrypted _ => (d.remove env.decryptedPart, .failed)
  | .writingDecrypted _ _ => (d.remove env.decryptedPart, .failed)
  | .movingDecrypted => (d.remove env.decryptedPart, .failed)
  | .removingPart => (d, .done)
  | .done => (d, .done)
  | _ => (d, .failed)

def downloadStep (env : DownloadEnv) (d : DownloadDisk) (p : DownloadPhase) :
    DownloadStep → DownloadDisk × DownloadPhase
  | .start => (d, if p = .idle then .checking else p)
  | .go ranged count => goStep env d ranged count p
  | .fault => faultStep env d p
  | .stop => (d, if p.Active then .failed else p)

variable {ι : Type}

abbrev Downloads (ι : Type) := Threads ι DownloadDisk DownloadPhase

/-- No file, and no run. -/
def downloads (ι : Type) : Downloads ι where
  shared := Disk.empty
  phase _ := .idle

variable [DecidableEq ι]

/--
No other run is under way at a start; a range begins before the end, if the server
honours it; and where the two temporary names are one, the process does not end while
the file under it is the decrypted one.
-/
structure Undisturbed (env : DownloadEnv) (c : Downloads ι) (e : ι × DownloadStep) :
    Prop where
  alone : e.2 = .start → ∀ i, i ≠ e.1 → ¬ (c.phase i).Active
  range : ∀ startOffset count, c.phase e.1 = .requesting startOffset →
    e.2 = .go true count → startOffset = 0 ∨ startOffset < env.body.length
  names : e.2 = .stop →
    ((∃ h plaintext, c.phase e.1 = .writingDecrypted h plaintext) ∨
      c.phase e.1 = .movingDecrypted) → env.sharedPart = false

/-- What a range has to meet, by the phase and the step. -/
def rangeBegins (env : DownloadEnv) : DownloadPhase → DownloadStep → Bool
  | .requesting startOffset, .go true _ =>
      decide (startOffset = 0) || decide (startOffset < env.body.length)
  | _, _ => true

/-- The file under the second temporary name is the decrypted one. -/
def DownloadPhase.holdsDecrypted : DownloadPhase → Bool
  | .writingDecrypted _ _ => true
  | .movingDecrypted => true
  | _ => false

omit [DecidableEq ι] in
theorem undisturbed_iff (env : DownloadEnv) (c : Downloads ι) (e : ι × DownloadStep) :
    Undisturbed env c e ↔
      (e.2 = .start → ∀ i, i ≠ e.1 → ¬ (c.phase i).Active) ∧
        rangeBegins env (c.phase e.1) e.2 = true ∧
        (e.2 = .stop → (c.phase e.1).holdsDecrypted = true →
          env.sharedPart = false) := by
  obtain ⟨i, e⟩ := e
  constructor
  · intro h
    refine ⟨h.alone, ?_, fun hstop hheld => h.names hstop ?_⟩
    · unfold rangeBegins
      split
      · rename_i startOffset count hphase hgo
        simpa using h.range startOffset count hphase hgo
      · rfl
    · revert hheld
      unfold DownloadPhase.holdsDecrypted
      split
      · rename_i handle plaintext hphase
        exact fun _ => Or.inl ⟨handle, plaintext, hphase⟩
      · rename_i hphase
        exact fun _ => Or.inr hphase
      · exact fun hheld => absurd hheld Bool.false_ne_true
  · rintro ⟨halone, hrange, hnames⟩
    refine ⟨halone, fun startOffset count hphase hgo => ?_, fun hstop hphase => ?_⟩
    · dsimp only at hphase hgo hrange
      rw [hphase, hgo] at hrange
      simpa [rangeBegins] using hrange
    · refine hnames hstop ?_
      rcases hphase with ⟨handle, plaintext, hphase⟩ | hphase
      · rw [hphase]
        rfl
      · rw [hphase]
        rfl

instance [Fintype ι] (env : DownloadEnv) (c : Downloads ι) (e : ι × DownloadStep) :
    Decidable (Undisturbed env c e) :=
  decidable_of_iff _ (undisturbed_iff env c e).symm

end Model

section Invariant

/-- The partial file is a beginning of the body. -/
def PartOk (env : DownloadEnv) (d : DownloadDisk) : Prop :=
  ∀ content, d.read .part = some content → content <+: env.body

/-- What holds of the files in each phase of a run. -/
def PhaseInv (env : DownloadEnv) (d : DownloadDisk) : DownloadPhase → Prop
  | .checking => PartOk env d
  | .statting => PartOk env d
  | .requesting startOffset =>
      PartOk env d ∧ (startOffset = 0 ∨
        ∃ content, d.read .part = some content ∧ content.length = startOffset)
  | .opening append rest =>
      PartOk env d ∧ (append = true →
        ∃ content, d.read .part = some content ∧ content ++ rest = env.body) ∧
        (append = false → rest = env.body)
  | .receiving h rest =>
      d.inode .part = some h.inode ∧ d.data h.inode ++ rest = env.body ∧
        ∀ p, h.position = some p → p = (d.data h.inode).length
  | .moving => env.encryptionVersion = 0 ∧ d.read .part = some env.body
  | .readingPart => d.read .part = some env.body
  | .removingBad => PartOk env d
  | .openingDecrypted plaintext => PartOk env d ∧ env.plain = some plaintext
  | .writingDecrypted h plaintext =>
      env.plain = some plaintext ∧ d.inode env.decryptedPart = some h.inode ∧
        d.data h.inode = [] ∧ h.position = some 0 ∧
        (env.sharedPart = false → PartOk env d)
  | .movingDecrypted =>
      (∃ plaintext, env.plain = some plaintext ∧
        d.read env.decryptedPart = some plaintext) ∧
        (env.sharedPart = false → PartOk env d)
  | .removingPart => PartOk env d ∧ ∃ content, d.read .final = some content
  | .done => ∃ content, d.read .final = some content
  | _ => True

/-- The final file is as it was, or the right one. -/
def Published (env : DownloadEnv) (d d' : DownloadDisk) : Prop :=
  d'.read .final = d.read .final ∨
    ∃ content, env.plain = some content ∧ d'.read .final = some content

/-- What a step of an active run comes to. -/
structure StepSpec (env : DownloadEnv) (d d' : DownloadDisk) (p' : DownloadPhase) :
    Prop where
  published : Published env d d'
  phase : PhaseInv env d' p'
  rest : ¬ p'.Active → PartOk env d'

variable {env : DownloadEnv} {d d' : DownloadDisk}

theorem decryptedPart_ne_final (env : DownloadEnv) : env.decryptedPart ≠ .final := by
  unfold DownloadEnv.decryptedPart
  split
  · decide
  · decide

theorem partOk_of_read {content : Bytes} (h : d.read .part = some content)
    (hbegins : content <+: env.body) : PartOk env d := by
  intro other hother
  cases h.symm.trans hother
  exact hbegins

theorem partOk_of_same (h : PartOk env d) (hsame : d'.read .part = d.read .part) :
    PartOk env d' := by
  intro content hcontent
  exact h content (hsame.symm.trans hcontent)

theorem partOk_remove (a : DownloadFile) (h : a ≠ .part → PartOk env d) :
    PartOk env (d.remove a) := by
  by_cases ha : a = .part
  · subst ha
    intro content hcontent
    rw [Disk.read_remove_self] at hcontent
    cases hcontent
  · exact partOk_of_same (h ha) (Disk.read_remove_of_ne (Ne.symm ha))

theorem plain_of_version (h : env.encryptionVersion = 0) : env.plain = some env.body := by
  simp [DownloadEnv.plain, DownloadEnv.decrypt, decryptDownloadedAttachmentBytes, h,
    Except.toOption]

end Invariant

section Steps

variable {env : DownloadEnv} {d : DownloadDisk}

theorem stepSpec_same {p' : DownloadPhase} (hphase : PhaseInv env d p')
    (hrest : ¬ p'.Active → PartOk env d) : StepSpec env d d p' :=
  ⟨Or.inl rfl, hphase, hrest⟩

/-- The server's answer continues the beginning that the run has. -/
theorem stepSpec_requesting {startOffset : Nat} {ranged : Bool}
    (h : PhaseInv env d (.requesting startOffset)) (count : Nat) :
    StepSpec env d (goStep env d ranged count (.requesting startOffset)).1
      (goStep env d ranged count (.requesting startOffset)).2 := by
  obtain ⟨hpart, hoffset⟩ := h
  simp only [goStep, serverAnswer]
  by_cases hall : startOffset = 0 ∨ ranged = false
  · rw [if_pos hall]
    exact stepSpec_same ⟨hpart, nofun, fun _ => rfl⟩ (fun _ => hpart)
  · rw [if_neg hall]
    have hpos : 0 < startOffset := Nat.pos_of_ne_zero (fun h => hall (Or.inl h))
    by_cases hlt : startOffset < env.body.length
    · rw [if_pos hlt]
      refine stepSpec_same ⟨hpart, fun _ => ?_, ?_⟩ (fun _ => hpart)
      · obtain ⟨content, hcontent, hlength⟩ := hoffset.resolve_left (Nat.ne_of_gt hpos)
        have hbegins := List.prefix_iff_eq_take.mp (hpart content hcontent)
        refine ⟨content, hcontent, ?_⟩
        rw [hlength] at hbegins
        rw [hbegins, List.take_append_drop]
      · simp [hpos]
    · rw [if_neg hlt]
      exact stepSpec_same trivial (fun _ => hpart)

theorem stepSpec_opening {append : Bool} {rest : Bytes}
    (h : PhaseInv env d (.opening append rest)) (ranged : Bool) (count : Nat) :
    StepSpec env d (goStep env d ranged count (.opening append rest)).1
      (goStep env d ranged count (.opening append rest)).2 := by
  obtain ⟨-, happend, htruncate⟩ := h
  cases append with
  | true =>
      obtain ⟨content, hcontent, hbody⟩ := happend rfl
      obtain ⟨hinode, hposition, hread, hother⟩ := Disk.openAppend_spec d .part
      have hdata : (d.openAppend .part).1.data (d.openAppend .part).2.inode = content := by
        rw [hcontent] at hread
        exact Option.some.inj ((Disk.read_of_inode hinode).symm.trans hread)
      refine ⟨Or.inl (hother .final (by decide)), ⟨hinode, ?_, ?_⟩, fun hout => ?_⟩
      · exact (congrArg (· ++ rest) hdata).trans hbody
      · intro p hp
        cases hp.symm.trans hposition
      · exact absurd ⟨nofun, nofun, nofun⟩ hout
  | false =>
      obtain ⟨hinode, hposition, hread, hother⟩ := Disk.openTruncate_spec d .part
      have hdata : (d.openTruncate .part).1.data (d.openTruncate .part).2.inode = [] :=
        Option.some.inj ((Disk.read_of_inode hinode).symm.trans hread)
      refine ⟨Or.inl (hother .final (by decide)), ⟨hinode, ?_, ?_⟩, fun hout => ?_⟩
      · exact (congrArg (· ++ rest) hdata).trans (htruncate rfl)
      · intro p hp
        have hzero : p = 0 := Option.some.inj (hp.symm.trans hposition)
        rw [hzero]
        exact (congrArg List.length hdata).symm
      · exact absurd ⟨nofun, nofun, nofun⟩ hout

/-- A chunk moves bytes from the answer to the end of the file. -/
theorem stepSpec_receiving {h : Handle} {rest : Bytes}
    (hinv : PhaseInv env d (.receiving h rest)) (ranged : Bool) (count : Nat) :
    StepSpec env d (goStep env d ranged count (.receiving h rest)).1
      (goStep env d ranged count (.receiving h rest)).2 := by
  obtain ⟨hinode, hbody, hend⟩ := hinv
  cases rest with
  | nil =>
      have hread : d.read .part = some env.body := by
        rw [Disk.read_of_inode hinode, ← hbody, List.append_nil]
      simp only [goStep]
      split
      · rename_i hversion
        exact stepSpec_same ⟨hversion, hread⟩ (fun _ => partOk_of_read hread (List.prefix_refl _))
      · exact stepSpec_same hread (fun _ => partOk_of_read hread (List.prefix_refl _))
  | cons byte rest =>
      obtain ⟨hinode', hdata, hend', hother⟩ :=
        Disk.write_spec ((byte :: rest).take (max count 1)) hinode hend
      refine ⟨Or.inl (hother .final (by decide)), ⟨hinode', ?_, ?_⟩, fun hout => ?_⟩
      · refine (congrArg (· ++ (byte :: rest).drop (max count 1)) hdata).trans ?_
        rw [List.append_assoc, List.take_append_drop]
        exact hbody
      · intro p hp
        exact (hend' p hp).trans (congrArg List.length hdata).symm
      · exact absurd ⟨nofun, nofun, nofun⟩ hout

theorem stepSpec_moving (h : PhaseInv env d .moving) (ranged : Bool) (count : Nat) :
    StepSpec env d (goStep env d ranged count .moving).1
      (goStep env d ranged count .moving).2 := by
  obtain ⟨hversion, hread⟩ := h
  obtain ⟨d', hrename, hfinal, hpart, -⟩ := Disk.rename_spec hread (b := .final) (by decide)
  simp only [goStep, hrename]
  refine ⟨Or.inr ⟨_, plain_of_version hversion, hfinal⟩, ⟨_, hfinal⟩, fun _ => ?_⟩
  intro content hcontent
  rw [hpart] at hcontent
  cases hcontent

theorem stepSpec_readingPart (h : PhaseInv env d .readingPart) (ranged : Bool) (count : Nat) :
    StepSpec env d (goStep env d ranged count .readingPart).1
      (goStep env d ranged count .readingPart).2 := by
  have hpart : PartOk env d := partOk_of_read h (List.prefix_refl _)
  simp only [goStep, show d.read .part = some env.body from h]
  cases hplain : env.decrypt env.body with
  | error e =>
      exact stepSpec_same hpart (fun _ => hpart)
  | ok plaintext =>
      refine stepSpec_same ⟨hpart, ?_⟩ (fun _ => hpart)
      rw [DownloadEnv.plain, hplain]
      rfl

theorem stepSpec_openingDecrypted {plaintext : Bytes}
    (h : PhaseInv env d (.openingDecrypted plaintext)) (ranged : Bool) (count : Nat) :
    StepSpec env d (goStep env d ranged count (.openingDecrypted plaintext)).1
      (goStep env d ranged count (.openingDecrypted plaintext)).2 := by
  obtain ⟨hpart, hplain⟩ := h
  obtain ⟨hinode, hposition, hread, hother⟩ := Disk.openTruncate_spec d env.decryptedPart
  have hdata : (d.openTruncate env.decryptedPart).1.data
      (d.openTruncate env.decryptedPart).2.inode = [] :=
    Option.some.inj ((Disk.read_of_inode hinode).symm.trans hread)
  refine ⟨Or.inl (hother .final (decryptedPart_ne_final env).symm),
    ⟨hplain, hinode, hdata, hposition, ?_⟩, fun hout => ?_⟩
  · intro hshared
    exact partOk_of_same hpart (hother .part (by simp [DownloadEnv.decryptedPart, hshared]))
  · exact absurd ⟨nofun, nofun, nofun⟩ hout

theorem stepSpec_writingDecrypted {h : Handle} {plaintext : Bytes}
    (hinv : PhaseInv env d (.writingDecrypted h plaintext)) (ranged : Bool) (count : Nat) :
    StepSpec env d (goStep env d ranged count (.writingDecrypted h plaintext)).1
      (goStep env d ranged count (.writingDecrypted h plaintext)).2 := by
  obtain ⟨hplain, hinode, hdata, hposition, hpart⟩ := hinv
  obtain ⟨hinode', hdata', -, hother⟩ := Disk.write_spec plaintext hinode (by
    intro p hp
    rw [hposition] at hp
    cases hp
    rw [hdata]
    rfl)
  refine ⟨Or.inl (hother .final (decryptedPart_ne_final env).symm),
    ⟨⟨plaintext, hplain, ?_⟩, ?_⟩, fun hout => ?_⟩
  · refine (Disk.read_of_inode hinode').trans ?_
    rw [hdata', hdata, List.nil_append]
  · intro hshared
    exact partOk_of_same (hpart hshared)
      (hother .part (by simp [DownloadEnv.decryptedPart, hshared]))
  · exact absurd ⟨nofun, nofun, nofun⟩ hout

theorem stepSpec_movingDecrypted (h : PhaseInv env d .movingDecrypted) (ranged : Bool)
    (count : Nat) :
    StepSpec env d (goStep env d ranged count .movingDecrypted).1
      (goStep env d ranged count .movingDecrypted).2 := by
  obtain ⟨⟨plaintext, hplain, hread⟩, hpart⟩ := h
  obtain ⟨d', hrename, hfinal, hgone, hother⟩ :=
    Disk.rename_spec hread (decryptedPart_ne_final env).symm
  simp only [goStep, hrename]
  have hrest : PartOk env d' := by
    cases hshared : env.sharedPart with
    | true =>
        have hname : env.decryptedPart = .part := by
          simp [DownloadEnv.decryptedPart, hshared]
        intro content hcontent
        rw [← hname, hgone] at hcontent
        cases hcontent
    | false =>
        exact partOk_of_same (hpart hshared)
          (hother .part (by simp [DownloadEnv.decryptedPart, hshared]) (by decide))
  exact ⟨Or.inr ⟨_, hplain, hfinal⟩, ⟨hrest, _, hfinal⟩, fun _ => hrest⟩

/-- A step of a run that has not ended keeps the files right. -/
theorem stepSpec_go {p : DownloadPhase} (hactive : p.Active) (h : PhaseInv env d p)
    (ranged : Bool) (count : Nat) :
    StepSpec env d (goStep env d ranged count p).1 (goStep env d ranged count p).2 := by
  cases p with
  | checking =>
      simp only [goStep]
      split
      · rename_i hfinal
        exact stepSpec_same (Option.isSome_iff_exists.mp hfinal) (fun _ => h)
      · exact stepSpec_same h (fun _ => h)
  | statting =>
      refine stepSpec_same ⟨h, ?_⟩ (fun _ => h)
      cases hread : d.read .part with
      | none =>
          exact Or.inl rfl
      | some content =>
          exact Or.inr ⟨content, rfl, rfl⟩
  | requesting startOffset =>
      exact stepSpec_requesting h count
  | opening append rest =>
      exact stepSpec_opening h ranged count
  | receiving handle rest =>
      exact stepSpec_receiving h ranged count
  | moving =>
      exact stepSpec_moving h ranged count
  | readingPart =>
      exact stepSpec_readingPart h ranged count
  | removingBad =>
      exact ⟨Or.inl (Disk.read_remove_of_ne (by decide)), trivial,
        fun _ => partOk_remove .part (fun hne => absurd rfl hne)⟩
  | openingDecrypted plaintext =>
      exact stepSpec_openingDecrypted h ranged count
  | writingDecrypted handle plaintext =>
      exact stepSpec_writingDecrypted h ranged count
  | movingDecrypted =>
      exact stepSpec_movingDecrypted h ranged count
  | removingPart =>
      obtain ⟨-, content, hfinal⟩ := h
      have hkept : (d.remove .part).read .final = d.read .final :=
        Disk.read_remove_of_ne (by decide)
      exact ⟨Or.inl hkept, ⟨content, hkept.trans hfinal⟩,
        fun _ => partOk_remove .part (fun hne => absurd rfl hne)⟩
  | idle =>
      exact absurd rfl hactive.1
  | done =>
      exact absurd rfl hactive.2.1
  | failed =>
      exact absurd rfl hactive.2.2

/-- An active run leaves a beginning of the body, unless it wrote the plaintext there. -/
theorem partOk_of_phaseInv {p : DownloadPhase} (hactive : p.Active) (h : PhaseInv env d p)
    (hnames : ((∃ handle plaintext, p = .writingDecrypted handle plaintext) ∨
      p = .movingDecrypted) → env.sharedPart = false) :
    PartOk env d := by
  cases p with
  | checking =>
      exact h
  | statting =>
      exact h
  | requesting startOffset =>
      exact h.1
  | opening append rest =>
      exact h.1
  | receiving handle rest =>
      exact partOk_of_read (Disk.read_of_inode h.1) ⟨rest, h.2.1⟩
  | moving =>
      exact partOk_of_read h.2 (List.prefix_refl _)
  | readingPart =>
      exact partOk_of_read h (List.prefix_refl _)
  | removingBad =>
      exact h
  | openingDecrypted plaintext =>
      exact h.1
  | writingDecrypted handle plaintext =>
      exact h.2.2.2.2 (hnames (Or.inl ⟨handle, plaintext, rfl⟩))
  | movingDecrypted =>
      exact h.2 (hnames (Or.inr rfl))
  | removingPart =>
      exact h.1
  | idle =>
      exact absurd rfl hactive.1
  | done =>
      exact absurd rfl hactive.2.1
  | failed =>
      exact absurd rfl hactive.2.2

/-- A failing operation loses a temporary file at most. -/
theorem stepSpec_removed (h : env.sharedPart = false → PartOk env d) :
    StepSpec env d (d.remove env.decryptedPart) .failed := by
  refine ⟨Or.inl (Disk.read_remove_of_ne (decryptedPart_ne_final env).symm), trivial,
    fun _ => partOk_remove _ ?_⟩
  intro hname
  cases hshared : env.sharedPart with
  | true =>
      simp [DownloadEnv.decryptedPart, hshared] at hname
  | false =>
      exact h hshared

theorem stepSpec_fault {p : DownloadPhase} (hactive : p.Active) (h : PhaseInv env d p) :
    StepSpec env d (faultStep env d p).1 (faultStep env d p).2 := by
  have hpart := partOk_of_phaseInv hactive h
  cases p with
  | checking =>
      exact stepSpec_same h (fun _ => h)
  | statting =>
      exact stepSpec_same ⟨h, Or.inl rfl⟩ (fun _ => h)
  | openingDecrypted plaintext =>
      exact stepSpec_removed (fun _ => h.1)
  | writingDecrypted handle plaintext =>
      exact stepSpec_removed h.2.2.2.2
  | movingDecrypted =>
      exact stepSpec_removed h.2
  | removingPart =>
      exact stepSpec_same h.2 (fun _ => h.1)
  | idle =>
      exact absurd rfl hactive.1
  | done =>
      exact absurd rfl hactive.2.1
  | _ =>
      exact stepSpec_same trivial (fun _ => hpart (by simp))

theorem stepSpec_step {p : DownloadPhase} (hactive : p.Active) (h : PhaseInv env d p)
    (e : DownloadStep)
    (hnames : e = .stop → ((∃ handle plaintext, p = .writingDecrypted handle plaintext) ∨
      p = .movingDecrypted) → env.sharedPart = false) :
    StepSpec env d (downloadStep env d p e).1 (downloadStep env d p e).2 := by
  cases e with
  | start =>
      simp only [downloadStep, if_neg hactive.1]
      exact stepSpec_same h (fun hout => absurd hactive hout)
  | go ranged count =>
      exact stepSpec_go hactive h ranged count
  | fault =>
      exact stepSpec_fault hactive h
  | stop =>
      simp only [downloadStep, if_pos hactive]
      exact stepSpec_same trivial (fun _ => partOk_of_phaseInv hactive h (hnames rfl))

end Steps

section Runs

variable {ι : Type} [DecidableEq ι] {env : DownloadEnv} {c : Downloads ι}

/-- What holds of the files and the runs. -/
structure RunInv (env : DownloadEnv) (c : Downloads ι) : Prop where
  final : ∀ content, c.shared.read .final = some content → env.plain = some content
  rest : (∀ i, ¬ (c.phase i).Active) → PartOk env c.shared
  phases : ∀ i, PhaseInv env c.shared (c.phase i)
  exclusive : c.Exclusive DownloadPhase.Active

/-- A run that has ended only relies on the final file. -/
theorem phaseInv_of_published {d d' : DownloadDisk} {p : DownloadPhase}
    (hp : ¬ p.Active) (h : PhaseInv env d p) (hd : Published env d d') :
    PhaseInv env d' p := by
  cases p with
  | idle =>
      trivial
  | failed =>
      trivial
  | done =>
      obtain ⟨content, hcontent⟩ := h
      rcases hd with hsame | ⟨other, -, hother⟩
      · exact ⟨content, hsame.trans hcontent⟩
      · exact ⟨other, hother⟩
  | _ =>
      exact absurd ⟨nofun, nofun, nofun⟩ hp

/-- What an ended run does changes nothing, but for the start. -/
theorem downloadStep_inactive {d : DownloadDisk} {p : DownloadPhase} {e : DownloadStep}
    (hp : ¬ p.Active) (hstart : ¬ (p = .idle ∧ e = .start)) :
    downloadStep env d p e = (d, p) := by
  cases p with
  | idle =>
      cases e with
      | start =>
          exact absurd ⟨rfl, rfl⟩ hstart
      | stop =>
          simp only [downloadStep, if_neg hp]
      | _ =>
          rfl
  | done =>
      cases e with
      | stop =>
          simp only [downloadStep, if_neg hp]
      | _ =>
          rfl
  | failed =>
      cases e with
      | stop =>
          simp only [downloadStep, if_neg hp]
      | _ =>
          rfl
  | _ =>
      exact absurd ⟨nofun, nofun, nofun⟩ hp

theorem runInv_active (h : RunInv env c) {e : ι × DownloadStep}
    (hactive : (c.phase e.1).Active) (hok : Undisturbed env c e) :
    RunInv env (c.step (downloadStep env) e) := by
  have hspec := stepSpec_step hactive (h.phases e.1) e.2 hok.names
  refine ⟨?_, ?_, ?_, h.exclusive.step e (fun _ => Or.inl hactive)⟩
  · intro content hcontent
    rcases hspec.published with hsame | ⟨other, hplain, hother⟩
    · exact h.final content (hsame.symm.trans hcontent)
    · cases hother.symm.trans hcontent
      exact hplain
  · intro hall
    have hown := hall e.1
    rw [Threads.step_phase_self] at hown
    exact hspec.rest hown
  · refine Threads.forall_step e hspec.phase ?_
    intro i hi
    have hout : ¬ (c.phase i).Active := fun hin => hi (h.exclusive i e.1 hin hactive)
    exact phaseInv_of_published hout (h.phases i) hspec.published

theorem runInv_start (h : RunInv env c) {i : ι} (hidle : c.phase i = .idle)
    (halone : ∀ j, j ≠ i → ¬ (c.phase j).Active) :
    RunInv env (c.step (downloadStep env) (i, .start)) := by
  have hpart : PartOk env c.shared := by
    refine h.rest (fun j => ?_)
    by_cases hj : j = i
    · rw [hj, hidle]
      exact fun hin => hin.1 rfl
    · exact halone j hj
  have hnext : (downloadStep env c.shared (c.phase i) .start).2 = .checking := by
    simp [downloadStep, hidle]
  refine ⟨h.final, fun _ => hpart, ?_, h.exclusive.step _ (fun _ => Or.inr halone)⟩
  refine Threads.forall_step (i, DownloadStep.start) ?_ (fun j _ => h.phases j)
  rw [hnext]
  exact hpart

theorem runInv_step (h : RunInv env c) {e : ι × DownloadStep} (hok : Undisturbed env c e) :
    RunInv env (c.step (downloadStep env) e) := by
  by_cases hactive : (c.phase e.1).Active
  · exact runInv_active h hactive hok
  · by_cases hstart : c.phase e.1 = .idle ∧ e.2 = .start
    · obtain ⟨i, e⟩ := e
      obtain ⟨hidle, rfl⟩ := hstart
      exact runInv_start h hidle (hok.alone rfl)
    · rw [Threads.step_of_same (downloadStep_inactive hactive hstart)]
      exact h

theorem runInv_downloads (env : DownloadEnv) (ι : Type) : RunInv env (downloads ι) := by
  refine ⟨nofun, fun _ => nofun, fun _ => trivial, ?_⟩
  intro i j hi
  exact absurd rfl hi.1

end Runs

section Progress

variable {env : DownloadEnv} {d : DownloadDisk}

/-- The run neither failed nor waits for its start. -/
def DownloadPhase.Going (p : DownloadPhase) : Prop :=
  p ≠ .idle ∧ p ≠ .failed ∧ p ≠ .removingBad

/-- A bound on the steps that are left. -/
def stepsLeft (env : DownloadEnv) : DownloadPhase → Nat
  | .checking => env.body.length + 10
  | .statting => env.body.length + 9
  | .requesting _ => env.body.length + 8
  | .opening _ rest => rest.length + 7
  | .receiving _ rest => rest.length + 6
  | .readingPart => 5
  | .openingDecrypted _ => 4
  | .writingDecrypted _ _ => 3
  | .movingDecrypted => 2
  | .moving => 1
  | .removingPart => 1
  | _ => 0

/-- A step without a fault brings the run nearer to its end. -/
theorem going_go {p : DownloadPhase} {plain : Bytes} (hplain : env.plain = some plain)
    (hgoing : p.Going) (h : PhaseInv env d p) (ranged : Bool) (count : Nat)
    (hrange : ∀ startOffset, p = .requesting startOffset → ranged = true →
      startOffset = 0 ∨ startOffset < env.body.length) :
    (goStep env d ranged count p).2.Going ∧
      stepsLeft env (goStep env d ranged count p).2 ≤ stepsLeft env p - 1 := by
  cases p with
  | checking =>
      simp only [goStep]
      split
      · exact ⟨⟨nofun, nofun, nofun⟩, Nat.zero_le _⟩
      · exact ⟨⟨nofun, nofun, nofun⟩, Nat.le_refl _⟩
  | statting =>
      exact ⟨⟨nofun, nofun, nofun⟩, Nat.le_refl _⟩
  | requesting startOffset =>
      simp only [goStep, serverAnswer]
      by_cases hall : startOffset = 0 ∨ ranged = false
      · rw [if_pos hall]
        exact ⟨⟨nofun, nofun, nofun⟩, Nat.le_refl _⟩
      · obtain ⟨hpos, hranged⟩ := not_or.mp hall
        have hlt := (hrange startOffset rfl (by simpa using hranged)).resolve_left hpos
        rw [if_neg hall, if_pos hlt]
        refine ⟨⟨nofun, nofun, nofun⟩, ?_⟩
        simp only [stepsLeft, List.length_drop]
        omega
  | opening append rest =>
      exact ⟨⟨nofun, nofun, nofun⟩, Nat.le_refl _⟩
  | receiving handle rest =>
      cases rest with
      | nil =>
          simp only [goStep]
          split
          · exact ⟨⟨nofun, nofun, nofun⟩, by simp [stepsLeft]⟩
          · exact ⟨⟨nofun, nofun, nofun⟩, by simp [stepsLeft]⟩
      | cons byte rest =>
          refine ⟨⟨nofun, nofun, nofun⟩, ?_⟩
          simp only [goStep, stepsLeft, List.length_drop, List.length_cons]
          omega
  | moving =>
      obtain ⟨d', hrename, -⟩ := Disk.rename_spec h.2 (b := .final) (by decide)
      simp only [goStep, hrename]
      exact ⟨⟨nofun, nofun, nofun⟩, Nat.zero_le _⟩
  | readingPart =>
      simp only [goStep, show d.read .part = some env.body from h]
      cases hdecrypt : env.decrypt env.body with
      | error e =>
          simp [DownloadEnv.plain, hdecrypt, Except.toOption] at hplain
      | ok plaintext =>
          exact ⟨⟨nofun, nofun, nofun⟩, Nat.le_refl _⟩
  | removingBad =>
      exact absurd rfl hgoing.2.2
  | openingDecrypted plaintext =>
      exact ⟨⟨nofun, nofun, nofun⟩, Nat.le_refl _⟩
  | writingDecrypted handle plaintext =>
      exact ⟨⟨nofun, nofun, nofun⟩, Nat.le_refl _⟩
  | movingDecrypted =>
      obtain ⟨⟨plaintext, -, hread⟩, -⟩ := h
      obtain ⟨d', hrename, -⟩ := Disk.rename_spec hread (decryptedPart_ne_final env).symm
      simp only [goStep, hrename]
      exact ⟨⟨nofun, nofun, nofun⟩, Nat.le_refl _⟩
  | removingPart =>
      exact ⟨⟨nofun, nofun, nofun⟩, Nat.zero_le _⟩
  | done =>
      exact ⟨⟨nofun, nofun, nofun⟩, Nat.le_refl _⟩
  | idle =>
      exact absurd rfl hgoing.1
  | failed =>
      exact absurd rfl hgoing.2.1

theorem done_of_stepsLeft {p : DownloadPhase} (hgoing : p.Going)
    (h : stepsLeft env p = 0) : p = .done := by
  cases p with
  | done =>
      rfl
  | idle =>
      exact absurd rfl hgoing.1
  | failed =>
      exact absurd rfl hgoing.2.1
  | removingBad =>
      exact absurd rfl hgoing.2.2
  | _ =>
      simp [stepsLeft] at h

variable {ι : Type} [DecidableEq ι]

/-- The events of a run that nothing interrupts. -/
def uninterrupted (i : ι) (gos : List (Bool × Nat)) : List (ι × DownloadStep) :=
  (i, .start) :: gos.map (fun x => (i, .go x.1 x.2))

/-- A run that goes on long enough ends with the final file. -/
theorem done_of_going
    {c : Downloads ι} {i : ι} {plain : Bytes} (hplain : env.plain = some plain)
    (hc : RunInv env c) (hgoing : (c.phase i).Going) (gos : List (Bool × Nat))
    (hlength : stepsLeft env (c.phase i) ≤ gos.length)
    (hok : Guarded (Threads.step (downloadStep env)) (Undisturbed env) c
      (gos.map (fun x => (i, .go x.1 x.2)))) :
    RunInv env (run (Threads.step (downloadStep env)) c
        (gos.map (fun x => (i, .go x.1 x.2)))) ∧
      (run (Threads.step (downloadStep env)) c
        (gos.map (fun x => (i, .go x.1 x.2)))).phase i = .done := by
  induction gos generalizing c with
  | nil =>
      exact ⟨hc, done_of_stepsLeft hgoing (Nat.le_zero.mp hlength)⟩
  | cons x gos ih =>
      obtain ⟨hfirst, hrest⟩ := hok
      have hrange : ∀ startOffset, c.phase i = .requesting startOffset → x.1 = true →
          startOffset = 0 ∨ startOffset < env.body.length := by
        intro startOffset hphase hranged
        refine hfirst.range startOffset x.2 hphase ?_
        rw [← hranged]
      obtain ⟨hnext, hleft⟩ := going_go hplain hgoing (hc.phases i) x.1 x.2 hrange
      have hself : (c.step (downloadStep env) (i, .go x.1 x.2)).phase i =
          (goStep env c.shared x.1 x.2 (c.phase i)).2 :=
        Threads.step_phase_self (i, DownloadStep.go x.1 x.2)
      refine ih (runInv_step hc hfirst) (hself ▸ hnext) ?_ hrest
      rw [hself]
      rw [List.length_cons] at hlength
      omega

/--
In every run of undisturbed steps the final file is the body, decrypted for an encrypted
ticket, or is not there; and a further run that nothing interrupts succeeds and leaves
the final file.
-/
theorem run_download_publishes
    {ι : Type} [DecidableEq ι] (env : DownloadEnv) (es : List (ι × DownloadStep)) :
    Guarded (Threads.step (downloadStep env)) (Undisturbed env) (downloads ι) es →
      let c := run (Threads.step (downloadStep env)) (downloads ι) es
      (∀ content, c.shared.read .final = some content → env.plain = some content) ∧
      ∀ plain, env.plain = some plain → ∀ i, c.phase i = .idle →
        ∀ gos : List (Bool × Nat), env.body.length + 10 ≤ gos.length →
          Guarded (Threads.step (downloadStep env)) (Undisturbed env) c
            (uninterrupted i gos) →
          let c' := run (Threads.step (downloadStep env)) c (uninterrupted i gos)
          c'.phase i = .done ∧ c'.shared.read .final = some plain := by
  intro hes
  have hc := hes.invariant (RunInv env) (fun c e hc he => runInv_step hc he)
    (runInv_downloads env ι)
  refine ⟨hc.final, ?_⟩
  intro plain hplain i hidle gos hlength hok
  obtain ⟨hstart, hgos⟩ := hok
  have hphase : ((run (Threads.step (downloadStep env)) (downloads ι) es).step
      (downloadStep env) (i, .start)).phase i = .checking := by
    refine (Threads.step_phase_self (i, DownloadStep.start)).trans ?_
    simp [downloadStep, hidle]
  obtain ⟨hend, hdone⟩ := done_of_going hplain (runInv_step hc hstart)
    (hphase ▸ ⟨nofun, nofun, nofun⟩) gos (hphase ▸ hlength) hgos
  refine ⟨hdone, ?_⟩
  have hfinal := hend.phases i
  rw [hdone] at hfinal
  obtain ⟨content, hcontent⟩ := hfinal
  have hright := hend.final content hcontent
  rw [hplain] at hright
  cases hright
  exact hcontent

/-- Two bytes and a legacy ticket. -/
def twoBytes : DownloadEnv where
  lib := sampleLib
  body := [1, 2]
  encryptionVersion := 0
  cek := none
  sharedPart := false

/-- One byte is received, and the run stops. -/
def stoppedHalfway : List (Bool × DownloadStep) :=
  [(true, .start), (true, .go true 1), (true, .go true 1), (true, .go true 1),
    (true, .go true 1), (true, .go true 1), (true, .stop)]

theorem run_download_publishes_halfway :
    let c := run (Threads.step (downloadStep twoBytes)) (downloads Bool) stoppedHalfway
    c.shared.read .part = some [1] ∧
      let c' := run (Threads.step (downloadStep twoBytes)) c
        (uninterrupted false (List.replicate 12 (true, 1)))
      c'.phase false = .done ∧ c'.shared.read .final = some [1, 2] :=
  ⟨by decide +kernel,
    (run_download_publishes twoBytes stoppedHalfway (by decide +kernel)).2 [1, 2]
      (by decide +kernel) false (by decide +kernel) (List.replicate 12 (true, 1))
      (by decide) (by decide +kernel)⟩

/-- Everything is received, and the run stops before the rename. -/
def stoppedComplete : List (Bool × DownloadStep) :=
  [(true, .start), (true, .go true 2), (true, .go true 2), (true, .go true 2),
    (true, .go true 2), (true, .go true 2), (true, .stop)]

/-- One byte is received; a second run finds it, and the first one writes the other. -/
def overlapping : List (Bool × DownloadStep) :=
  [(true, .start), (true, .go true 1), (true, .go true 1), (true, .go true 1),
    (true, .go true 1), (true, .go true 1), (false, .start), (false, .go true 1),
    (false, .go true 1), (true, .go true 1), (true, .stop), (false, .go true 1),
    (false, .go true 1), (false, .go true 1), (false, .go true 1), (false, .go true 1)]

/--
A run that finds the whole body fails, whatever it goes on to do; and a run that
overlaps with a cancelled one publishes another file.
-/
theorem run_download_fails :
    (let c := run (Threads.step (downloadStep twoBytes)) (downloads Bool)
      (stoppedComplete ++ uninterrupted false (List.replicate 20 (true, 2)))
    c.phase false = .failed ∧ c.shared.read .final = none ∧
      c.shared.read .part = some twoBytes.body) ∧
    (let c := run (Threads.step (downloadStep twoBytes)) (downloads Bool) overlapping
    c.shared.read .final = some [1, 2, 2]) := by
  decide +kernel

end Progress

end Download
end PrivchatSdk
