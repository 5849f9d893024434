import PrivchatSdk.AttachmentThumbnail

/-!
# One send attempt of an attachment, up to its settlement

An attempt stages the body, prepares and delivers.  `processOutboundFile_ensures`
says what a safe attempt of an image or video does on every way out: it reads the
body at its source and leaves it there, keeps and uploads the thumbnail, and ends
early only with an excuse.
-/

namespace PrivchatSdk

open StatementExec RelTable EventRun

section Stage

variable (h : MediaHost) (a : Attachment) (payload : Bytes)

/-- The body of the message: in the command, or at the source path. -/
def Attachment.source (files : Files) : Option Bytes :=
  if payload.isEmpty then files a.sourcePath else some payload

/-- Without failing steps an attempt comes to its answer. -/
structure Attachment.Ready (files : Files) : Prop where
  body : ∃ body, a.source payload files = some body ∧ body ≠ [] ∧
    a.Preparable h files body
  fits : typeFits a.messageType = true

/-- The attempt writes nothing over the source but its own bytes. -/
def Attachment.SourceSafe (env : SendEnv) : Prop :=
  payload = [] →
    a.sourcePath ≠ a.metaPath h ∧ a.sourcePath ≠ a.canonicalThumb h ∧
      (a.sourcePath = a.bodyPath h →
        ∀ written, env.ioFault .writeBody ≠ some (.torn written))

/-- The body was read, and perhaps staged. -/
structure Attachment.Staged (env : SendEnv) (d d' : Device) : Prop where
  store : d'.store = d.store
  thumbs : d'.thumbs = d.thumbs
  bodies : d'.bodies = d.bodies
  accepted : d'.accepted = d.accepted
  reads : d'.reads = d.reads ∨ d'.reads = a.source payload d.files :: d.reads
  files : d'.files = d.files ∨ ∃ bytes,
    d'.files = Function.update d.files (a.bodyPath h) (some bytes) ∧
      (a.source payload d.files = some bytes ∨
        ∃ written, env.ioFault .writeBody = some (.torn written))

variable {h a payload} {env : SendEnv} {d d' : Device}

theorem Attachment.Staged.thumbsSame (hstaged : a.Staged h payload env d d') :
    a.ThumbsSame h d.files d'.files := by
  rcases hstaged.files with heq | ⟨bytes, heq, -⟩
  · rw [heq]
    exact ⟨rfl, fun _ _ => rfl⟩
  · rw [heq]
    exact Attachment.thumbsSame_update bytes (.inl rfl)

/-- A source that is staged over is staged over with its own bytes. -/
theorem Attachment.Staged.source
    (hstaged : a.Staged h payload env d d') (hsafe : a.SourceSafe h payload env) :
    a.source payload d'.files = a.source payload d.files := by
  rcases hstaged.files with heq | ⟨bytes, heq, hbytes⟩
  · rw [heq]
  · unfold Attachment.source at hbytes ⊢
    rw [heq]
    cases payload with
    | cons b payload =>
        rfl
    | nil =>
        simp only [List.isEmpty_nil, if_true] at hbytes ⊢
        by_cases hpath : a.sourcePath = a.bodyPath h
        · rcases hbytes with hsource | ⟨written, hio⟩
          · rw [hsource, hpath, Function.update_self]
          · exact absurd hio ((hsafe rfl).2.2 hpath written)
        · rw [Function.update_of_ne hpath]

theorem readBody_ensures
    {Q : Bytes → Device → Prop} {E : Halt → Device → Prop}
    (hread : ∀ body, a.source payload d.files = some body →
      Q body { d with reads := some body :: d.reads })
    (hmissing : a.source payload d.files = none →
      E (.stop (.invalidState "attachment source unreadable"))
        { d with reads := none :: d.reads })
    (hfault : env.ioFault .readBody ≠ none →
      E (.stop (.invalidState "attachment source unreadable")) d) :
    (readBody a payload).Ensures env d Q E := by
  unfold readBody
  unfold Attachment.source at hread hmissing
  cases payload with
  | cons b payload =>
      exact hread _ rfl
  | nil =>
      simp only [List.isEmpty_nil, if_true] at hread hmissing
      show Exec.Ensures (readSource a.sourcePath) env d Q E
      unfold Exec.Ensures readSource
      cases hio : env.ioFault .readBody with
      | some fault =>
          exact hfault (by simp [hio])
      | none =>
          simp only [Option.isSome_none, Bool.false_eq_true, if_false]
          cases hfile : d.files a.sourcePath with
          | none => exact hmissing hfile
          | some body => exact hread body hfile

theorem stageBody_ensures :
    (stageBody h a payload).Ensures env d
      (fun body d' => a.Staged h payload env d d' ∧
        a.source payload d.files = some body ∧ body ≠ [] ∧
        d'.files (a.bodyPath h) = some body)
      (fun halt d' => a.Staged h payload env d d' ∧
        halt.Excused env a (a.Ready h payload d.files)) := by
  have hnoted : ∀ reads, (reads = d.reads ∨
      reads = a.source payload d.files :: d.reads) →
      a.Staged h payload env d { d with reads := reads } :=
    fun reads hreads => ⟨rfl, rfl, rfl, rfl, hreads, .inl rfl⟩
  unfold stageBody
  rw [Exec.ensures_bind]
  refine readBody_ensures (fun body hsource => ?_) (fun hnone => ?_) (fun hio => ?_)
  · have hread := hnoted (some body :: d.reads) (.inr (by rw [hsource]))
    rw [Exec.ensures_bind, ensures_crashPoint]
    split
    · rename_i hc
      exact ⟨hread, excused_crash hc⟩
    · cases hempty : body.isEmpty with
      | true =>
          rw [if_pos rfl, Exec.ensures_fail]
          refine ⟨hread, excused_of_not_ready (fun hready => ?_)⟩
          obtain ⟨body', hbody', hne, -⟩ := hready.body
          rw [hsource] at hbody'
          cases hbody'
          exact hne (List.isEmpty_iff.mp hempty)
      | false =>
          have hne : body ≠ [] := by
            rintro rfl
            cases hempty
          have hstaged : ∀ bytes, (a.source payload d.files = some bytes ∨
              ∃ written, env.ioFault .writeBody = some (.torn written)) →
              a.Staged h payload env d
                { d with
                  reads := some body :: d.reads
                  files := Function.update d.files (a.bodyPath h) (some bytes) } :=
            fun bytes hbytes => ⟨rfl, rfl, rfl, rfl, hread.reads,
              .inr ⟨bytes, rfl, hbytes⟩⟩
          rw [if_neg Bool.false_ne_true]
          simp only [Exec.ensures_bind, ensures_ioStep, ensures_crashPoint]
          split
          · split
            · split
              · rename_i hc
                exact ⟨hread, excused_crash hc⟩
              · refine ensures_writeFile (fun hio => ?_) (fun hio => ?_)
                  (fun written hio => ?_)
                · split
                  · rename_i hc
                    exact ⟨hstaged body (.inl hsource), excused_crash hc⟩
                  · exact ⟨hstaged body (.inl hsource), hsource, hne, by simp⟩
                · exact ⟨hread, excused_io hio (by simp)⟩
                · exact ⟨hstaged _ (.inr ⟨written, hio⟩),
                    excused_io (show env.ioFault .writeBody ≠ none by simp [hio])
                      (by simp)⟩
            · rename_i hio
              exact ⟨hread, excused_io hio (by simp)⟩
          · rename_i hio
            exact ⟨hread, excused_io hio (by simp)⟩
  · refine ⟨hnoted _ (.inr (by rw [hnone])), excused_of_not_ready (fun hready => ?_)⟩
    obtain ⟨body, hbody, -⟩ := hready.body
    rw [hnone] at hbody
    cases hbody
  · exact ⟨hnoted _ (.inl rfl), excused_io hio (by simp)⟩

end Stage

section Deliver

variable {h : MediaHost} {a : Attachment} {env : SendEnv} {d d' : Device}

/-- What the delivery records, for a thumbnail with these bytes or none. -/
structure Attachment.Delivered
    (a : Attachment) (thumb : Option Bytes) (d d' : Device) : Prop where
  files : d'.files = d.files
  reads : d'.reads = d.reads
  store : StoreHeld a.messageId d.store d'.store
  thumbs : d'.thumbs = d.thumbs ∨ ∃ t, thumb = some t ∧ d'.thumbs = t :: d.thumbs
  bodies : d'.bodies = d.bodies ∨ ∃ body, d'.bodies = (thumb, body) :: d.bodies
  accepted : d'.accepted = d.accepted ∨
    (d'.accepted = true ∧ typeFits a.messageType = true)

/-- The device after the thumbnail was uploaded. -/
def Device.withThumb (d : Device) (thumb : Option Bytes) : Device :=
  { d with thumbs := thumb.toList ++ d.thumbs }

theorem Device.withThumb_delivered (thumb : Option Bytes) :
    a.Delivered thumb d (d.withThumb thumb) where
  files := rfl
  reads := rfl
  store := .refl _ _
  thumbs := by
    cases thumb with
    | none => exact .inl rfl
    | some t => exact .inr ⟨t, rfl, rfl⟩
  bodies := .inl rfl
  accepted := .inl rfl

theorem Attachment.Delivered.refl (thumb : Option Bytes) : a.Delivered thumb d d where
  files := rfl
  reads := rfl
  store := .refl _ _
  thumbs := .inl rfl
  bodies := .inl rfl
  accepted := .inl rfl

/-- The upload of a thumbnail that is there. -/
theorem uploadThumbnail_ensures
    {thumb : Option Path} (a : Attachment) (ready : Prop)
    (hfound : ∀ path, thumb = some path → (d.files path).isSome = true) :
    (uploadThumbnail thumb).Ensures env d
      (fun uploaded d' => d' = d.withThumb (thumb.bind d.files) ∧
        uploaded.map Prod.fst = thumb.bind d.files ∧
        ∀ bytes info, uploaded = some (bytes, info) → env.uploadThumb = .ok info)
      (fun halt d' => (d' = d ∨ d' = d.withThumb (thumb.bind d.files)) ∧
        halt.Excused env a ready) := by
  cases thumb with
  | none =>
      exact ⟨rfl, rfl, by simp⟩
  | some path =>
      obtain ⟨bytes, hbytes⟩ := Option.isSome_iff_exists.mp (hfound path rfl)
      have hrecorded : ({ d with thumbs := bytes :: d.thumbs } : Device) =
          d.withThumb ((some path).bind d.files) := by
        simp [Device.withThumb, hbytes]
      unfold uploadThumbnail
      rw [Exec.ensures_bind, ensures_ioStep]
      split
      · rw [Exec.ensures_bind, ensures_peekFiles, hbytes]
        dsimp only
        rw [Exec.ensures_bind]
        show Exec.Ensures _ env { d with thumbs := bytes :: d.thumbs } _ _
        rw [hrecorded, Exec.ensures_bind, ensures_answer]
        cases hthumb : env.uploadThumb with
        | error e =>
            refine ⟨.inr rfl, fun _ => ⟨fun hworks => ?_, fun hmild =>
              hmild.thumb e hthumb⟩⟩
            obtain ⟨info, hinfo, -⟩ := hworks.thumb
            rw [hthumb] at hinfo
            cases hinfo
        | ok info =>
            dsimp only
            rw [Exec.ensures_bind, ensures_crashPoint]
            split
            · rename_i hc
              exact ⟨.inr rfl, excused_crash hc⟩
            · rw [Exec.ensures_bind, ensures_answer]
              cases hcallback : env.thumbCallback with
              | error e =>
                  refine ⟨.inr rfl, fun _ => ⟨fun hworks => ?_, fun hmild =>
                    hmild.thumbCallback e hcallback⟩⟩
                  have hok := hworks.thumbCallback
                  rw [hcallback] at hok
                  cases hok
              | ok u =>
                  dsimp only
                  rw [Exec.ensures_bind, ensures_crashPoint]
                  split
                  · rename_i hc
                    exact ⟨.inr rfl, excused_crash hc⟩
                  · refine ⟨rfl, by simp [hbytes], ?_⟩
                    rintro bytes' info' ⟨⟩
                    rfl
      · rename_i hio
        exact ⟨.inl rfl, excused_io hio (by simp)⟩

/-- The ids of the answers are numbers, or the attempt has an excuse. -/
theorem parseFileIds_ensures
    {thumb : Option (Bytes × UploadedFileInfo)} {uploaded : UploadedFileInfo}
    (a : Attachment) (ready : Prop) (hbody : env.uploadBody = .ok uploaded)
    (hthumb : ∀ bytes info, thumb = some (bytes, info) →
      env.uploadThumb = .ok info) :
    (parseFileIds thumb uploaded).Ensures env d (fun _ d' => d' = d)
      (fun halt d' => d' = d ∧ halt.Excused env a ready) := by
  unfold parseFileIds
  rw [Exec.ensures_bind]
  unfold parseFileId
  cases hid : parseU64 uploaded.fileId with
  | none =>
      refine ⟨rfl, fun _ => ⟨fun hworks => ?_, fun hmild => ?_⟩⟩
      · obtain ⟨info, hinfo, hsome⟩ := hworks.body
        rw [hbody] at hinfo
        cases hinfo
        rw [hid] at hsome
        cases hsome
      · have hsome := hmild.bodyId uploaded hbody
        rw [hid] at hsome
        cases hsome
  | some fileId =>
      dsimp only
      rw [Exec.ensures_pure]
      cases thumb with
      | none => exact rfl
      | some pair =>
          dsimp only
          rw [Exec.ensures_bind]
          have hinfo := hthumb pair.1 pair.2 rfl
          cases htid : parseU64 pair.2.fileId with
          | none =>
              refine ⟨rfl, fun _ => ⟨fun hworks => ?_, fun hmild => ?_⟩⟩
              · obtain ⟨info, hok, hsome⟩ := hworks.thumb
                rw [hinfo] at hok
                cases hok
                rw [htid] at hsome
                cases hsome
              · have hsome := hmild.thumbId _ hinfo
                rw [htid] at hsome
                cases hsome
          | some thumbId => exact rfl

/-- An operation whose failure does not matter. -/
theorem ensures_onStore_attempt
    {m : Nat} {x : StoreM PUnit} (hx : x.Relates (StoreHeld m))
    {Q : Except Halt PUnit → Device → Prop} {E : Halt → Device → Prop}
    (hQ : ∀ res s, StoreHeld m d.store s → Q res { d with store := s }) :
    (onStore m x).attempt.Ensures env d Q E := by
  have hheld := hx (env.pass.commandEnv m) d.store
  unfold Exec.after at hheld
  rw [Exec.ensures_attempt]
  unfold Exec.Ensures onStore
  cases hrun : x (env.pass.commandEnv m) d.store with
  | mk res s =>
  rw [hrun] at hheld
  cases res with
  | ok u => exact hQ _ s hheld
  | error e => exact hQ _ s hheld

theorem ensures_buildRequest
    {Q : PUnit → Device → Prop} {E : Halt → Device → Prop}
    (hbuilt : typeFits a.messageType = true → Q .unit d)
    (hunbuilt : (Halt.stop (.serialization "build send message request")).Excused
        env a (typeFits a.messageType = true) →
      E (.stop (.serialization "build send message request")) d) :
    (buildRequest a).Ensures env d Q E := by
  unfold Exec.Ensures buildRequest
  cases hfits : typeFits a.messageType with
  | false =>
      exact hunbuilt (excused_of_not_ready (by simp [hfits]))
  | true =>
      cases hencodes : env.pass.encodes a.messageId with
      | false =>
          refine hunbuilt (fun _ => ⟨fun hworks => ?_, fun hmild => ?_⟩)
          · have hok := hworks.encodes
            rw [hencodes] at hok
            cases hok
          · have hok := hmild.encodes
            rw [hencodes] at hok
            cases hok
      | true =>
          exact hbuilt hfits

/-- The send of a request: accepted, or an excuse. -/
theorem ensures_directSendMessage
    (a : Attachment) (ready : Prop) {Q : SendMessageResponse → Device → Prop}
    {E : Halt → Device → Prop}
    (haccepted : ∀ response, Q response { d with accepted := true })
    (hfailed : ∀ e d', (d' = d ∨ d' = { d with accepted := true }) →
      (Halt.stop e).Excused env a ready → E (.stop e) d') :
    directSendMessage.Ensures env d Q E := by
  have hexcused : ∀ e, env.send = .lost e ∨ env.send = .refused e →
      (Halt.stop e).Excused env a ready := by
    intro e he _
    refine ⟨fun hworks => ?_, fun hmild => hmild.send e he⟩
    obtain ⟨response, hsend⟩ := hworks.send
    rw [hsend] at he
    rcases he with he | he <;> cases he
  unfold Exec.Ensures directSendMessage
  cases hsend : env.send with
  | accepted response => exact haccepted response
  | lost e => exact hfailed e _ (.inr rfl) (hexcused e (.inl hsend))
  | refused e => exact hfailed e _ (.inl rfl) (hexcused e (.inr hsend))

/-- The send of a content, after what was delivered so far. -/
theorem sendContent_ensures
    {thumb : Option Bytes} {d₁ : Device} (content : String)
    (hsent : a.Delivered thumb d d₁) :
    (sendContent a content).Ensures env d₁
      (fun _ d' => a.Delivered thumb d d' ∧ d'.accepted = true)
      (fun halt d' => a.Delivered thumb d d' ∧
        halt.Excused env a (typeFits a.messageType = true)) := by
  unfold sendContent
  rw [Exec.ensures_bind]
  refine ensures_buildRequest (fun hfits => ?_) (fun hexcused => ⟨hsent, hexcused⟩)
  have haccepted : ∀ s, StoreHeld a.messageId d₁.store s →
      a.Delivered thumb d { d₁ with store := s, accepted := true } :=
    fun s hs => ⟨hsent.files, hsent.reads, hsent.store.trans hs,
      hsent.thumbs, hsent.bodies, .inr ⟨rfl, hfits⟩⟩
  rw [Exec.ensures_bind]
  refine ensures_directSendMessage a (typeFits a.messageType = true)
    (fun response => ?_) ?_
  · rw [Exec.ensures_bind, ensures_crashPoint]
    split
    · rename_i hc
      exact ⟨haccepted _ (.refl _ _), excused_crash hc⟩
    · rw [Exec.ensures_bind]
      refine ensures_onStore_attempt
        (storeHeld_updateMessageContentLocal _ _) (fun res s hs => ?_)
      rw [Exec.ensures_bind, ensures_crashPoint]
      split
      · rename_i hc
        exact ⟨haccepted s hs, excused_crash hc⟩
      · exact ⟨haccepted s hs, rfl⟩
  · rintro e d₂ (rfl | rfl) hexcused
    · exact ⟨hsent, hexcused⟩
    · exact ⟨haccepted _ (.refl _ _), hexcused⟩

theorem deliver_ensures
    {prepared : Prepared}
    (hfound : ∀ path, prepared.thumb = some path → (d.files path).isSome = true) :
    (deliver h a prepared).Ensures env d
      (fun _ d' => a.Delivered (prepared.thumb.bind d.files) d d' ∧
        d'.accepted = true)
      (fun halt d' => a.Delivered (prepared.thumb.bind d.files) d d' ∧
        halt.Excused env a (typeFits a.messageType = true)) := by
  unfold deliver
  rw [Exec.ensures_bind]
  refine (uploadThumbnail_ensures a (typeFits a.messageType = true) hfound).mono ?_ ?_
  · rintro uploadedThumb d₁ ⟨rfl, hbytes, hinfo⟩
    rw [Exec.ensures_bind, hbytes]
    have hfirst := Device.withThumb_delivered (a := a) (d := d)
      (prepared.thumb.bind d.files)
    show Exec.Ensures _ env
      { d.withThumb (prepared.thumb.bind d.files) with
        bodies := (prepared.thumb.bind d.files, prepared.upload) :: d.bodies } _ _
    generalize hd₂ : ({ d.withThumb (prepared.thumb.bind d.files) with
      bodies := (prepared.thumb.bind d.files, prepared.upload) :: d.bodies } :
        Device) = d₂
    have hsent : a.Delivered (prepared.thumb.bind d.files) d d₂ := by
      rw [← hd₂]
      exact ⟨rfl, rfl, .refl _ _, hfirst.thumbs, .inr ⟨_, rfl⟩, .inl rfl⟩
    rw [Exec.ensures_bind, ensures_answer]
    cases hbody : env.uploadBody with
    | error e =>
        refine ⟨hsent, fun _ => ⟨fun hworks => ?_, fun hmild =>
          hmild.body e hbody⟩⟩
        obtain ⟨info, hok, -⟩ := hworks.body
        rw [hbody] at hok
        cases hok
    | ok uploaded =>
        dsimp only
        rw [Exec.ensures_bind, ensures_crashPoint]
        split
        · rename_i hc
          exact ⟨hsent, excused_crash hc⟩
        · rw [Exec.ensures_bind, ensures_answer]
          cases hcallback : env.bodyCallback with
          | error e =>
              refine ⟨hsent, fun _ => ⟨fun hworks => ?_, fun hmild =>
                hmild.bodyCallback e hcallback⟩⟩
              have hok := hworks.bodyCallback
              rw [hcallback] at hok
              cases hok
          | ok u =>
              dsimp only
              rw [Exec.ensures_bind, ensures_crashPoint]
              split
              · rename_i hc
                exact ⟨hsent, excused_crash hc⟩
              · rw [Exec.ensures_bind]
                refine (parseFileIds_ensures a (typeFits a.messageType = true)
                  hbody hinfo).mono ?_ ?_
                · rintro ⟨fileId, thumbnail⟩ d₃ rfl
                  exact sendContent_ensures _ hsent
                · rintro halt d₃ ⟨rfl, hexcused⟩
                  exact ⟨hsent, hexcused⟩
  · rintro halt d₁ ⟨rfl | rfl, hexcused⟩
    · exact ⟨.refl _, hexcused⟩
    · exact ⟨Device.withThumb_delivered _, hexcused⟩

end Deliver

section Attempt

variable {h : MediaHost} {a : Attachment} {payload : Bytes} {env : SendEnv}

/-- What a safe attempt does before it is settled, on every way out. -/
structure Attachment.Attempted
    (h : MediaHost) (a : Attachment) (payload : Bytes) (d d' : Device) : Prop where
  store : StoreHeld a.messageId d.store d'.store
  reads : d'.reads = d.reads ∨ d'.reads = a.source payload d.files :: d.reads
  source : a.source payload d'.files = a.source payload d.files
  kept : a.ThumbsKept h d.files d'.files
  ready : a.Ready h payload d.files → a.Ready h payload d'.files
  accepted : d'.accepted = d.accepted ∨
    (d'.accepted = true ∧ a.Ready h payload d.files)
  thumbs : ∀ t, a.IsThumbnail h d.files t →
    d'.thumbs = d.thumbs ∨ d'.thumbs = t :: d.thumbs
  bodies : ∀ t, a.IsThumbnail h d.files t →
    d'.bodies = d.bodies ∨ ∃ body, d'.bodies = (some t, body) :: d.bodies

theorem Attachment.Attempted.refl (d : Device) : a.Attempted h payload d d where
  store := .refl _ _
  reads := .inl rfl
  source := rfl
  kept _ _ _ _ hfile := hfile
  ready hready := hready
  accepted := .inl rfl
  thumbs _ _ := .inl rfl
  bodies _ _ := .inl rfl

theorem Attachment.Ready.of_preparable
    {files files' : Files} (hsource : a.source payload files' =
      a.source payload files)
    (hkeep : ∀ body, a.source payload files = some body →
      a.Preparable h files body → a.Preparable h files' body)
    (hready : a.Ready h payload files) : a.Ready h payload files' := by
  obtain ⟨body, hbody, hne, hprep⟩ := hready.body
  exact ⟨⟨body, hsource.trans hbody, hne, hkeep body hbody hprep⟩, hready.fits⟩

theorem Attachment.Staged.attempted
    {d d' : Device} (hstaged : a.Staged h payload env d d')
    (hsafe : a.SourceSafe h payload env) : a.Attempted h payload d d' where
  store := by
    rw [hstaged.store]
    exact .refl _ _
  reads := hstaged.reads
  source := hstaged.source hsafe
  kept := hstaged.thumbsSame.thumbsKept
  ready := Attachment.Ready.of_preparable (hstaged.source hsafe)
    (fun _ _ => hstaged.thumbsSame.preparable.mpr)
  accepted := .inl hstaged.accepted
  thumbs _ _ := .inl hstaged.thumbs
  bodies _ _ := .inl hstaged.bodies

/-- The preparation leaves the source, which it does not write over. -/
theorem Attachment.source_of_prepared
    {d₁ d₂ : Device} (hsafe : a.SourceSafe h payload env)
    (hframe : Prepares h a d₁ d₂) (hmedia : a.MediaKept h d₁.files d₂.files) :
    a.source payload d₂.files = a.source payload d₁.files := by
  unfold Attachment.source
  cases payload with
  | cons b payload =>
      rfl
  | nil =>
      simp only [List.isEmpty_nil, if_true]
      obtain ⟨hmeta, hcanonical, -⟩ := hsafe rfl
      by_cases hpath : a.sourcePath = a.bodyPath h
      · rw [hpath]
        exact hmedia.body (a.isManaged_of_bodyPath h hpath)
      · exact hframe.files _ hpath hmeta hcanonical

/-- An attempt up to the end of the preparation. -/
theorem Attachment.Attempted.prepared
    {d d₁ d₂ : Device} (hstaged : a.Staged h payload env d d₁)
    (hsafe : a.SourceSafe h payload env)
    (hframe : Prepares h a d₁ d₂) (hmedia : a.MediaKept h d₁.files d₂.files) :
    a.Attempted h payload d d₂ := by
  have hfirst := hstaged.attempted hsafe
  have hsource : a.source payload d₂.files = a.source payload d.files :=
    (Attachment.source_of_prepared hsafe hframe hmedia).trans hfirst.source
  obtain ⟨hreads, hthumbs, hbodies, haccepted⟩ := hframe.record
  refine ⟨hfirst.store.trans hframe.store, ?_, hsource, ?_, ?_, ?_, ?_, ?_⟩
  · rw [hreads]
    exact hfirst.reads
  · exact fun p hp t hdecodes hfile =>
      hmedia.kept p hp t hdecodes (hfirst.kept p hp t hdecodes hfile)
  · exact Attachment.Ready.of_preparable hsource (fun _ _ hprep =>
      hmedia.preparable (hstaged.thumbsSame.preparable.mpr hprep))
  · rw [haccepted]
    exact .inl hstaged.accepted
  · intro t _
    rw [hthumbs]
    exact .inl hstaged.thumbs
  · intro t _
    rw [hbodies]
    exact .inl hstaged.bodies

/-- One attempt of an image or video, if it is safe. -/
theorem processOutboundFile_ensures
    {d : Device} (hmedia : a.fileType = .image ∨ a.fileType = .video)
    (hsource : a.SourceSafe h payload env)
    (hsafe : ∀ body, a.source payload d.files = some body →
      a.ThumbnailSafe h env d.files body) :
    (processOutboundFile h a payload).Ensures env d
      (fun _ d' => a.Attempted h payload d d' ∧ d'.accepted = true)
      (fun halt d' => a.Attempted h payload d d' ∧
        halt.Excused env a (a.Ready h payload d.files)) := by
  unfold processOutboundFile
  rw [Exec.ensures_bind]
  refine stageBody_ensures.mono ?_ ?_
  · rintro body d₁ ⟨hstaged, hbody, hne, hlaid⟩
    have hsame := hstaged.thumbsSame
    -- What is ready before the body is staged is ready to be prepared after it.
    have hready : a.Preparable h d₁.files body → typeFits a.messageType = true →
        a.Ready h payload d.files :=
      fun hprep hfits => ⟨⟨body, hbody, hne, hsame.preparable.mp hprep⟩, hfits⟩
    have hprep : a.Ready h payload d.files → a.Preparable h d₁.files body := by
      intro hr
      obtain ⟨body', hbody', -, hok⟩ := hr.body
      rw [hbody] at hbody'
      cases hbody'
      exact hsame.preparable.mpr hok
    rw [Exec.ensures_bind]
    refine ((prepare_ensures hmedia hlaid (hsame.thumbnailSafe
      (hsafe body hbody))).and ((prepares_prepare h a body).ensures env d₁)).mono
      ?_ ?_
    · rintro prepared d₂ ⟨hdone, hframe⟩
      have hfirst := Attachment.Attempted.prepared hstaged hsource hframe
        hdone.media
      have hthumb : ∀ t, a.IsThumbnail h d.files t →
          prepared.thumb.bind d₂.files = some t := by
        intro t ht
        obtain ⟨heq, hfile⟩ := hdone.same t (hsame.isThumbnail.mpr ht)
        rw [heq]
        exact hfile
      have hall : ∀ d₃, a.Delivered (prepared.thumb.bind d₂.files) d₂ d₃ →
          a.Attempted h payload d d₃ := by
        intro d₃ hsent
        refine ⟨hfirst.store.trans hsent.store, ?_, ?_, ?_, ?_, ?_, ?_, ?_⟩
        · rw [hsent.reads]
          exact hfirst.reads
        · rw [hsent.files]
          exact hfirst.source
        · rw [hsent.files]
          exact hfirst.kept
        · rw [hsent.files]
          exact hfirst.ready
        · rcases hsent.accepted with heq | ⟨hok, hfits⟩
          · rw [heq]
            exact hfirst.accepted
          · exact .inr ⟨hok, hready hdone.ready hfits⟩
        · intro t ht
          obtain ⟨-, hthumbs, -, -⟩ := hframe.record
          rcases hsent.thumbs with heq | ⟨t', ht', heq⟩
          · rw [heq, hthumbs]
            exact .inl hstaged.thumbs
          · rw [hthumb t ht] at ht'
            cases ht'
            rw [heq, hthumbs, hstaged.thumbs]
            exact .inr rfl
        · intro t ht
          obtain ⟨-, -, hbodies, -⟩ := hframe.record
          rcases hsent.bodies with heq | ⟨bytes, heq⟩
          · rw [heq, hbodies]
            exact .inl hstaged.bodies
          · rw [heq, hthumb t ht, hbodies, hstaged.bodies]
            exact .inr ⟨bytes, rfl⟩
      have hfound : ∀ path, prepared.thumb = some path →
          (d₂.files path).isSome = true :=
        fun path hpath => (hdone.found path hpath).2
      exact (deliver_ensures hfound).mono
        (fun _ d₃ hsent => ⟨hall d₃ hsent.1, hsent.2⟩)
        (fun _ d₃ hsent => ⟨hall d₃ hsent.1, hsent.2.mono (fun hr => hr.fits)⟩)
    · rintro halt d₂ ⟨hhalt, hframe⟩
      exact ⟨.prepared hstaged hsource hframe hhalt.media,
        hhalt.excused.mono hprep⟩
  · rintro halt d₁ ⟨hstaged, hexcused⟩
    exact ⟨hstaged.attempted hsource, hexcused⟩

end Attempt

end PrivchatSdk
