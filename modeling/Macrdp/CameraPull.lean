import Macrdp.CameraDevice
import Macrdp.StepSystem

/-!
# Pulling samples from a redirected camera

The requests that are outstanding, the stream that was acknowledged and what the sink was told
of it are watched from outside the processor, over every sequence of payloads.
-/

namespace Macrdp.CameraPull

open StepSystem CameraDevice

/-- A media type as the sink is told of it: its format, width and height. -/
def mediaType (d : List UInt8) : UInt8 × UInt32 × UInt32 := (d.getD 0 0, u32At d 1, u32At d 5)

/-- A sample, or the report that there is none. -/
def answers (payload : List UInt8) : Bool :=
  match Incoming.ofPayload payload with
  | .sampleResponse _ | .sampleErrorResponse => true
  | _ => false

/-- A request for a sample. -/
def CameraMsg.pulls (m : CameraMsg) : Bool := m.msgId = MsgId.sampleRequest

/-- The description that a request to start a stream names. -/
def CameraMsg.starts (m : CameraMsg) : Option (List UInt8) :=
  if m.msgId = MsgId.startStreamsRequest then some (m.body.drop 1) else none

/-- The media type that a call tells the sink. -/
def SinkCall.tells : SinkCall → Option (UInt8 × UInt32 × UInt32)
  | .onMediaType format width height => some (format, width, height)
  | .onSample _ => none

/-- A device channel and what was seen on it. -/
structure Watch where
  device : RdCameraDeviceProcessor
  /-- Streaming has begun. -/
  begun : Bool
  /-- Sample requests sent. -/
  requested : ℕ
  /-- Sample and sample error responses received since streaming began. -/
  answered : ℕ
  /-- The description of the last request to start a stream. -/
  offered : Option (List UInt8)
  /-- The description of the request to start a stream that was acknowledged. -/
  acknowledged : Option (List UInt8)
  /-- The last media type that the sink was told. -/
  told : Option (UInt8 × UInt32 × UInt32)
  /-- The device has been done. -/
  stopped : Bool

namespace Watch

/-- The channel is open and its first request is sent. -/
def start (version : UInt8) (sink : Bool) : Watch :=
  ⟨(RdCameraDeviceProcessor.new version sink).start.device, false, 0, 0, none, none, none, false⟩

/-- Watch the handling of a payload. -/
def observe (w : Watch) (payload : List UInt8) : Watch :=
  let outcome := w.device.process payload
  { device := outcome.device
    begun := w.begun || decide (outcome.device.state = .streaming)
    requested := w.requested + outcome.messages.countP CameraMsg.pulls
    answered := w.answered + if w.begun && answers payload then 1 else 0
    offered := (outcome.messages.findSome? CameraMsg.starts).or w.offered
    acknowledged :=
      if w.device.state = .starting ∧ outcome.device.state = .streaming then w.offered
      else w.acknowledged
    told := (outcome.calls.findSome? SinkCall.tells).or w.told
    stopped := w.stopped || decide (outcome.device.state = .done) }

/-- What the handling of a payload is to keep. -/
structure Sound (w : Watch) (payload : List UInt8) : Prop where
  /-- No more requests are outstanding than the pipeline holds. -/
  credit : (w.observe payload).requested ≤ (w.observe payload).answered + samplePipelineDepth
  /-- Samples are requested while streaming only. -/
  pulls : ∀ m ∈ (w.device.process payload).messages, CameraMsg.pulls m = true →
    (w.device.process payload).device.state = .streaming
  /-- The sink gets a sample while streaming only, and knows the stream that was acknowledged. -/
  samples : ∀ frame, .onSample frame ∈ (w.device.process payload).calls →
    w.device.state = .streaming ∧
      ∃ d, w.acknowledged = some d ∧ w.told = some (mediaType d)
  /-- The sink is told of every stream that is started. -/
  told : ∀ m ∈ (w.device.process payload).messages, ∀ d, CameraMsg.starts m = some d →
    w.device.sink = true →
      .onMediaType (mediaType d).1 (mediaType d).2.1 (mediaType d).2.2 ∈
        (w.device.process payload).calls
  /-- A device that is done sends nothing. -/
  inert : w.stopped = true → (w.device.process payload).messages = []

/-- A sample comes while streaming, a list that is used not after the device is done, and
streaming begins but once. -/
def orderly (w : Watch) (payload : List UInt8) : Bool :=
  match Incoming.ofPayload payload with
  | .sampleResponse _ | .sampleErrorResponse => w.device.state = .streaming
  | .streamListResponse => w.device.state ≠ .done
  | .mediaTypeListResponse body =>
    decide (w.device.state ≠ .done) || decide (body.length < mediaTypeDescLen)
  | .successResponse => !(decide (w.device.state = .starting) && w.begun)
  | .errorResponse | .other => true

/-- What is known of a device channel while all is sound. -/
structure Inv (w : Watch) : Prop where
  requested : w.requested = w.answered + if w.begun then samplePipelineDepth else 0
  stopped : w.stopped = decide (w.device.state = .done)
  starting : w.device.state = .starting → w.device.sink = true →
    ∃ d, w.offered = some d ∧ w.told = some (mediaType d)
  begun : w.device.state = .streaming → w.begun = true
  streaming : w.device.state = .streaming → w.device.sink = true →
    ∃ d, w.acknowledged = some d ∧ w.told = some (mediaType d)

/-- The format, width and height of a description. -/
theorem mediaType_toList (d : MediaTypeDesc) :
    mediaType d.toList = (d[0], u32At d.toList 1, u32At d.toList 5) := by
  unfold mediaType
  simp

/-- Requests for samples are counted. -/
theorem countP_sampleRequests (p : RdCameraDeviceProcessor) (n : ℕ) :
    (p.sampleRequests n).countP CameraMsg.pulls = n := by
  unfold RdCameraDeviceProcessor.sampleRequests
  rw [List.countP_replicate]
  rfl

variable {w : Watch} {payload : List UInt8}

/-- A message that is not handled changes nothing and is sound. -/
theorem quiet (h : w.Inv)
    (hprocess : w.device.process payload = ⟨w.device, [], []⟩) (hanswers : answers payload = false) :
    w.Sound payload ∧ (w.observe payload).Inv := by
  have hdone : ¬ (w.device.state = .starting ∧ w.device.state = .streaming) := by
    rintro ⟨hstarting, hstreaming⟩
    rw [hstarting] at hstreaming
    cases hstreaming
  have hbegun : (w.observe payload).begun = w.begun := by
    simp only [observe, hprocess]
    by_cases hstreaming : w.device.state = .streaming
    · simp [h.begun hstreaming]
    · simp [hstreaming]
  constructor
  · constructor
    · have hcount := h.requested
      simp only [observe, hprocess, hanswers, List.countP_nil]
      split at hcount <;> simp <;> omega
    · simp [hprocess]
    · simp [hprocess]
    · simp [hprocess]
    · simp [hprocess]
  · constructor
    · rw [hbegun]
      simpa [observe, hprocess, hanswers] using h.requested
    · simp [observe, hprocess, h.stopped]
    · simpa [observe, hprocess] using h.starting
    · intro hstreaming
      rw [hbegun]
      exact h.begun (by simpa [observe, hprocess] using hstreaming)
    · simpa [observe, hprocess, hdone] using h.streaming

/-- A message that the negotiation goes on with, without a sample, is sound unless the device
was done. -/
theorem negotiated {outcome : Outcome} (h : w.Inv)
    (hprocess : w.device.process payload = outcome) (hanswers : answers payload = false)
    (hpulls : ∀ m ∈ outcome.messages, CameraMsg.pulls m = false)
    (hstate : outcome.device.state ≠ .streaming) (hsink : outcome.device.sink = w.device.sink)
    (hsamples : ∀ frame, .onSample frame ∉ outcome.calls)
    (htold : ∀ m ∈ outcome.messages, ∀ d, CameraMsg.starts m = some d → w.device.sink = true →
      .onMediaType (mediaType d).1 (mediaType d).2.1 (mediaType d).2.2 ∈ outcome.calls)
    (hlive : w.device.state = .done → outcome.device.state = .done ∧ outcome.messages = [])
    (hstarting : outcome.device.state = .starting → w.device.sink = true →
      ∃ d, outcome.messages.findSome? CameraMsg.starts = some d ∧
        outcome.calls.findSome? SinkCall.tells = some (mediaType d)) :
    w.Sound payload ∧ (w.observe payload).Inv := by
  have hnone : outcome.messages.countP CameraMsg.pulls = 0 := by
    rw [List.countP_eq_zero]
    intro m hm hpull
    rw [hpulls m hm] at hpull
    cases hpull
  have hrequested : (w.observe payload).requested = w.requested := by
    simp [observe, hprocess, hnone]
  have hanswered : (w.observe payload).answered = w.answered := by
    simp [observe, hanswers]
  have hbegun : (w.observe payload).begun = w.begun := by
    simp [observe, hprocess, hstate]
  have hcount := h.requested
  constructor
  · constructor
    · rw [hrequested, hanswered]
      split at hcount <;> omega
    · rw [hprocess]
      intro m hm hpull
      rw [hpulls m hm] at hpull
      cases hpull
    · rw [hprocess]
      exact fun frame hframe => absurd hframe (hsamples frame)
    · rw [hprocess]
      exact htold
    · rw [hprocess, h.stopped, decide_eq_true_iff]
      exact fun hdone => (hlive hdone).2
  · constructor
    · rw [hrequested, hanswered, hbegun]
      exact hcount
    · simp only [observe, hprocess, h.stopped]
      by_cases hdone : w.device.state = .done
      · simp [hdone, (hlive hdone).1]
      · simp [hdone]
    · intro hnew hsinks
      have hnew' : outcome.device.state = .starting := by rw [← hprocess]; exact hnew
      have hsinks' : w.device.sink = true := by rw [← hsink, ← hprocess]; exact hsinks
      obtain ⟨d, hstarts, htells⟩ := hstarting hnew' hsinks'
      refine ⟨d, ?_, ?_⟩
      · simp [observe, hprocess, hstarts]
      · simp [observe, hprocess, htells]
    · intro hnew
      exact absurd (by rw [← hprocess]; exact hnew) hstate
    · intro hnew
      exact absurd (by rw [← hprocess]; exact hnew) hstate

/-- A device that is done sends nothing soundly. -/
theorem not_sound_of_done (h : w.Inv)
    (hdone : w.device.state = .done) (hsends : (w.device.process payload).messages ≠ []) :
    ¬ w.Sound payload := by
  intro hsound
  refine hsends (hsound.inert ?_)
  rw [h.stopped, hdone]
  rfl

/-- The answer to a sample is sound exactly while streaming. -/
theorem pulled {calls : List SinkCall} (h : w.Inv)
    (hprocess : w.device.process payload = ⟨w.device, w.device.sampleRequests 1, calls⟩)
    (hanswers : answers payload = true) (htells : calls.findSome? SinkCall.tells = none)
    (hcalls : calls ≠ [] → w.device.sink = true) :
    (w.Sound payload ↔ w.device.state = .streaming) ∧
      (w.device.state = .streaming → (w.observe payload).Inv) := by
  have hrequested : (w.observe payload).requested = w.requested + 1 := by
    simp [observe, hprocess, countP_sampleRequests]
  have hcount := h.requested
  constructor
  · constructor
    · intro hsound
      have hpull := hsound.pulls (w.device.msg MsgId.sampleRequest [w.device.streamIndex])
      rw [hprocess] at hpull
      exact hpull (List.mem_replicate.mpr ⟨by decide, rfl⟩) rfl
    · intro hstreaming
      have hbegun := h.begun hstreaming
      have hanswered : (w.observe payload).answered = w.answered + 1 := by
        simp [observe, hanswers, hbegun]
      constructor
      · rw [hbegun, if_pos rfl] at hcount
        rw [hrequested, hanswered]
        omega
      · rw [hprocess]
        exact fun m hm hpull => hstreaming
      · rw [hprocess]
        intro frame hframe
        exact ⟨hstreaming, h.streaming hstreaming (hcalls (List.ne_nil_of_mem hframe))⟩
      · rw [hprocess]
        intro m hm d hstarts
        rw [List.eq_of_mem_replicate hm] at hstarts
        cases hstarts
      · rw [h.stopped, hstreaming]
        intro hdone
        cases hdone
  · intro hstreaming
    have hbegun := h.begun hstreaming
    have hanswered : (w.observe payload).answered = w.answered + 1 := by
      simp [observe, hanswers, hbegun]
    have hdevice : (w.observe payload).device = w.device := by
      simp [observe, hprocess]
    constructor
    · have hbegun' : (w.observe payload).begun = true := by simp [observe, hbegun]
      rw [hbegun, if_pos rfl] at hcount
      rw [hrequested, hanswered, hbegun', if_pos rfl]
      omega
    · rw [hdevice, hstreaming]
      simp [observe, hprocess, h.stopped, hstreaming]
    · rw [hdevice, hstreaming]
      intro hstarting
      cases hstarting
    · intro _
      simp [observe, hbegun]
    · rw [hdevice]
      intro _ hsinks
      obtain ⟨d, hd, htold⟩ := h.streaming hstreaming hsinks
      refine ⟨d, ?_, ?_⟩
      · simpa [observe, hprocess, hstreaming] using hd
      · simpa [observe, hprocess, htells] using htold

/-- The acknowledgement of the stream is sound exactly if it is the first. -/
theorem acknowledges (h : w.Inv) (hkind : Incoming.ofPayload payload = .successResponse)
    (hstate : w.device.state = .starting) :
    (w.Sound payload ↔ w.begun = false) ∧ (w.begun = false → (w.observe payload).Inv) := by
  have hprocess : w.device.process payload =
      ⟨{ w.device with state := .streaming },
        RdCameraDeviceProcessor.sampleRequests { w.device with state := .streaming }
          samplePipelineDepth, []⟩ := by
    simp [RdCameraDeviceProcessor.process, hkind, RdCameraDeviceProcessor.success, hstate,
      RdCameraDeviceProcessor.sampleRequests, RdCameraDeviceProcessor.msg]
  have hanswers : answers payload = false := by simp [answers, hkind]
  have hrequested : (w.observe payload).requested = w.requested + samplePipelineDepth := by
    simp [observe, hprocess, countP_sampleRequests]
  have hanswered : (w.observe payload).answered = w.answered := by
    simp [observe, hanswers]
  have hcount := h.requested
  constructor
  · constructor
    · intro hsound
      have hcredit := hsound.credit
      rw [Bool.eq_false_iff]
      intro hbegun
      rw [hbegun, if_pos rfl] at hcount
      rw [hrequested, hanswered, hcount] at hcredit
      have hdepth : samplePipelineDepth = 4 := rfl
      omega
    · intro hbegun
      constructor
      · rw [hbegun] at hcount
        rw [hrequested, hanswered, hcount]
        simp
      · rw [hprocess]
        exact fun m hm hpull => rfl
      · rw [hprocess]
        exact fun frame hframe => absurd hframe List.not_mem_nil
      · rw [hprocess]
        intro m hm d hstart
        rw [List.eq_of_mem_replicate hm] at hstart
        cases hstart
      · rw [h.stopped, hstate]
        intro hdone
        cases hdone
  · intro hbegun
    rw [hbegun] at hcount
    have hstreaming : (w.observe payload).device.state = .streaming := by
      simp [observe, hprocess]
    have hbegun' : (w.observe payload).begun = true := by simp [observe, hprocess]
    constructor
    · rw [hrequested, hanswered, hcount, hbegun']
      rfl
    · rw [hstreaming]
      simp [observe, hprocess, h.stopped, hstate]
    · rw [hstreaming]
      intro hstarting
      cases hstarting
    · exact fun _ => hbegun'
    · intro _ hsinks
      have hsinks' : w.device.sink = true := by simpa [observe, hprocess] using hsinks
      obtain ⟨d, hd, htold⟩ := h.starting hstate hsinks'
      refine ⟨d, ?_, ?_⟩
      · simpa [observe, hprocess, hstate] using hd
      · simpa [observe, hprocess] using htold

/-- A list of media types is sound unless it is used after the device was done. -/
theorem listed {body : List UInt8} (h : w.Inv)
    (hkind : Incoming.ofPayload payload = .mediaTypeListResponse body) :
    (w.Sound payload ↔ w.device.state ≠ .done ∨ body.length < mediaTypeDescLen) ∧
      (w.device.state ≠ .done ∨ body.length < mediaTypeDescLen → (w.observe payload).Inv) := by
  have hprocess : w.device.process payload = w.device.mediaTypeList body := by
    simp [RdCameraDeviceProcessor.process, hkind]
  have hanswers : answers payload = false := by simp [answers, hkind]
  unfold RdCameraDeviceProcessor.mediaTypeList at hprocess
  cases hpick : pickMediaType body with
  | none =>
    rw [hpick] at hprocess
    have hshort := pickMediaType_eq_none.mp hpick
    obtain ⟨hsound, hinv⟩ := negotiated h hprocess hanswers (by simp) (by simp) rfl (by simp)
      (by simp) (by simp) (by simp)
    exact ⟨iff_of_true hsound (.inr hshort), fun _ => hinv⟩
  | some chosen =>
    rw [hpick] at hprocess
    have hlong : ¬ body.length < mediaTypeDescLen := by
      rw [← pickMediaType_eq_none, hpick]
      simp
    rw [or_iff_left hlong]
    by_cases hdone : w.device.state = .done
    · rw [iff_false_right (not_not.mpr hdone)]
      refine ⟨not_sound_of_done h hdone ?_, fun hlive => absurd hdone hlive⟩
      rw [hprocess]
      exact List.cons_ne_nil _ _
    · have htells : ∀ d, CameraMsg.starts (w.device.msg MsgId.startStreamsRequest
          (w.device.streamIndex :: chosen.toList)) = some d → d = chosen.toList := by
        intro d hd
        exact (Option.some.inj hd).symm
      obtain ⟨hsound, hinv⟩ := negotiated h hprocess hanswers
        (by simp [CameraMsg.pulls, RdCameraDeviceProcessor.msg]; decide) (by simp) rfl
        (by intro frame hframe; split at hframe <;> simp at hframe)
        (by
          intro m hm d hstarts hsink
          rw [List.mem_singleton.mp hm] at hstarts
          rw [htells d hstarts, mediaType_toList, hsink]
          exact List.mem_singleton.mpr rfl)
        (fun hd => absurd hd hdone)
        (by
          intro _ hsink
          refine ⟨chosen.toList, rfl, ?_⟩
          rw [mediaType_toList, hsink]
          rfl)
      exact ⟨iff_of_true hsound hdone, fun _ => hinv⟩

/-- The handling of a payload is sound exactly if the payload is orderly. -/
theorem sound_iff (payload : List UInt8) (h : w.Inv) :
    (w.Sound payload ↔ w.orderly payload = true) ∧
      (w.orderly payload = true → (w.observe payload).Inv) := by
  cases hkind : Incoming.ofPayload payload with
  | successResponse =>
    have hprocess : w.device.process payload = w.device.success := by
      simp [RdCameraDeviceProcessor.process, hkind]
    have hanswers : answers payload = false := by simp [answers, hkind]
    have horderly : w.orderly payload = !(decide (w.device.state = .starting) && w.begun) := by
      simp [orderly, hkind]
    rw [horderly]
    by_cases hstarting : w.device.state = .starting
    · rw [hstarting, decide_eq_true rfl, Bool.true_and, Bool.not_eq_true']
      exact acknowledges h hkind hstarting
    · rw [decide_eq_false hstarting, Bool.false_and, Bool.not_false]
      have hkept : w.Sound payload ∧ (w.observe payload).Inv := by
        by_cases hactivating : w.device.state = .activating
        · have houtcome : w.device.process payload = ⟨{ w.device with state := .listingStreams },
              [w.device.msg MsgId.streamListRequest []], []⟩ := by
            simp [hprocess, RdCameraDeviceProcessor.success, hactivating]
          refine negotiated h houtcome hanswers ?_ (by simp) rfl (by simp) ?_ ?_ (by simp)
          · simp [CameraMsg.pulls, RdCameraDeviceProcessor.msg]
            decide
          · simp [CameraMsg.starts, RdCameraDeviceProcessor.msg, MsgId.streamListRequest,
              MsgId.startStreamsRequest]
          · rw [hactivating]
            intro hdone
            cases hdone
        · have houtcome : w.device.process payload = ⟨w.device, [], []⟩ := by
            rw [hprocess]
            unfold RdCameraDeviceProcessor.success
            split
            · next hstate => exact absurd hstate hactivating
            · next hstate => exact absurd hstate hstarting
            · rfl
          exact quiet h houtcome hanswers
      exact ⟨iff_of_true hkept.1 rfl, fun _ => hkept.2⟩
  | errorResponse =>
    have hprocess : w.device.process payload = ⟨{ w.device with state := .done }, [], []⟩ := by
      simp [RdCameraDeviceProcessor.process, hkind]
    have hanswers : answers payload = false := by simp [answers, hkind]
    have horderly : w.orderly payload = true := by simp [orderly, hkind]
    obtain ⟨hsound, hinv⟩ := negotiated h hprocess hanswers (by simp) (by simp) rfl (by simp)
      (by simp) (by simp) (by simp)
    exact ⟨iff_of_true hsound horderly, fun _ => hinv⟩
  | streamListResponse =>
    have hprocess : w.device.process payload = w.device.streamList := by
      simp [RdCameraDeviceProcessor.process, hkind]
    have hanswers : answers payload = false := by simp [answers, hkind]
    have horderly : w.orderly payload = decide (w.device.state ≠ .done) := by
      simp [orderly, hkind]
    rw [horderly, decide_eq_true_iff]
    by_cases hdone : w.device.state = .done
    · rw [iff_false_right (not_not.mpr hdone)]
      refine ⟨not_sound_of_done h hdone ?_, fun hlive => absurd hdone hlive⟩
      rw [hprocess]
      exact List.cons_ne_nil _ _
    · obtain ⟨hsound, hinv⟩ := negotiated h hprocess hanswers
        (by simp [RdCameraDeviceProcessor.streamList, CameraMsg.pulls,
          RdCameraDeviceProcessor.msg]; decide)
        (by simp [RdCameraDeviceProcessor.streamList]) rfl
        (by simp [RdCameraDeviceProcessor.streamList])
        (by simp [RdCameraDeviceProcessor.streamList, CameraMsg.starts,
          RdCameraDeviceProcessor.msg, MsgId.mediaTypeListRequest, MsgId.startStreamsRequest])
        (fun hd => absurd hd hdone) (by simp [RdCameraDeviceProcessor.streamList])
      exact ⟨iff_of_true hsound hdone, fun _ => hinv⟩
  | mediaTypeListResponse body =>
    have horderly : w.orderly payload =
        (decide (w.device.state ≠ .done) || decide (body.length < mediaTypeDescLen)) := by
      simp [orderly, hkind]
    rw [horderly, Bool.or_eq_true, decide_eq_true_iff, decide_eq_true_iff]
    exact listed h hkind
  | sampleResponse body =>
    have hprocess : w.device.process payload = ⟨w.device, w.device.sampleRequests 1,
        if w.device.sink then [.onSample (body.drop 1)] else []⟩ := by
      simp [RdCameraDeviceProcessor.process, hkind, RdCameraDeviceProcessor.sample]
    have horderly : w.orderly payload = decide (w.device.state = .streaming) := by
      simp [orderly, hkind]
    rw [horderly, decide_eq_true_iff]
    refine pulled h hprocess (by simp [answers, hkind]) ?_ ?_
    · split <;> rfl
    · intro hcalls
      by_contra hsink
      rw [if_neg hsink] at hcalls
      exact hcalls rfl
  | sampleErrorResponse =>
    have hprocess : w.device.process payload = ⟨w.device, w.device.sampleRequests 1, []⟩ := by
      simp [RdCameraDeviceProcessor.process, hkind]
    have horderly : w.orderly payload = decide (w.device.state = .streaming) := by
      simp [orderly, hkind]
    rw [horderly, decide_eq_true_iff]
    exact pulled h hprocess (by simp [answers, hkind]) rfl fun hcalls => absurd rfl hcalls
  | other =>
    have hprocess : w.device.process payload = ⟨w.device, [], []⟩ := by
      simp [RdCameraDeviceProcessor.process, hkind]
    have horderly : w.orderly payload = true := by simp [orderly, hkind]
    obtain ⟨hsound, hinv⟩ := quiet h hprocess (by simp [answers, hkind])
    exact ⟨iff_of_true hsound horderly, fun _ => hinv⟩

/-- An open channel meets the invariant. -/
theorem inv_start (version : UInt8) (sink : Bool) : (start version sink).Inv := by
  constructor
  · rfl
  · rfl
  · intro hstarting
    cases hstarting
  · intro hstreaming
    cases hstreaming
  · intro hstreaming
    cases hstreaming

/-- The handling of every payload of a sequence is sound exactly if every payload is orderly
where it comes. -/
theorem pulls_iff_orderly (version : UInt8) (sink : Bool) (payloads : List (List UInt8)) :
    (∀ before payload, before ++ [payload] <+: payloads →
        (before.foldl observe (start version sink)).Sound payload) ↔
      Meets (total observe) (fun w payload => w.orderly payload = true) (start version sink)
        payloads := by
  have hstep : ∀ (w : Watch) (payload : List UInt8) (w' : Watch), w.Inv →
      w.orderly payload = true → total observe w payload = some w' → w'.Inv := by
    rintro w payload w' h horderly ⟨⟩
    exact (sound_iff payload h).2 horderly
  rw [← meets_total_iff]
  exact meets_congr Inv (fun w payload h => (sound_iff payload h).1) hstep
    (inv_start version sink)

/-- A media type list with one compressed format. -/
def mediaTypes : List UInt8 := [2, 0x0C] ++ (Format.h264 :: List.replicate 25 0)

/-- A client that answers each request in turn, and stops the device. -/
def answeredDevice : List (List UInt8) :=
  [[2, 0x01], [2, 0x0A, 0], mediaTypes, [2, 0x01], [2, 0x12, 0, 7], [2, 0x13, 0, 1], [2, 0x12, 0],
    [2, 0x02, 1, 0, 0, 0], [2, 0x01]]

example : meetsBool (total observe) orderly (start 2 true) answeredDevice = true := by
  decide +kernel

/-- A client that stops its device and then sends a stream list. -/
def revivedDevice : List (List UInt8) := [[2, 0x02, 1, 0, 0, 0], [2, 0x0A, 0]]

/-- A device that is done asks for the media types. -/
theorem not_sound_revivedDevice :
    ¬ ∀ (version : UInt8) (sink : Bool) (payloads before : List (List UInt8))
      (payload : List UInt8), before ++ [payload] <+: payloads →
        (before.foldl observe (start version sink)).Sound payload := by
  intro h
  have hsound := h 2 true revivedDevice [[2, 0x02, 1, 0, 0, 0]] [2, 0x0A, 0] (List.prefix_refl _)
  have hsilent := hsound.inert (by decide +kernel)
  cases hsilent

end Watch

end Macrdp.CameraPull
