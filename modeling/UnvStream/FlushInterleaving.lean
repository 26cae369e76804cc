import UnvStream.LossyDelivery

/-!
# Flushes against session changes

The chunks of a flush are separate calls of `addFrame`, and each call tests
`iRTSP_State` anew. A flush is sent chunk by chunk as the tests fall. Every `sendto` succeeds here;
one that fails ends the process, which `SendOutcomes` has.
-/

namespace FlushInterleaving

open MarkedFraming Vocabulary FragmentLoop FrameSender ClientReceiver FragmentedDelivery
  LossyDelivery

/-- What the calls of the flush `f` observed, when the calls `earlier` came first. -/
def testsOf (earlier f : List (List UInt8)) (tests : List RtspState) : List RtspState :=
  (tests.drop earlier.length).take f.length

/-- The chunks of the flush that were sent. -/
def sentOf (earlier f : List (List UInt8)) (tests : List RtspState) : List (List UInt8) :=
  observed f (testsOf earlier f tests)

/-- Every flush is sent as a whole or not at all. -/
def FlushAtomic (flushes : List (List (List UInt8))) (tests : List RtspState) : Prop :=
  ∀ earlier f later, flushes = earlier ++ f :: later →
    sentOf earlier.flatten f tests = f ∨ sentOf earlier.flatten f tests = []

/-- The RTSP thread takes no step from the first to the last call of the flush `f`;
the calls `later` come after it. -/
def Quiet (start : VideoThread) (actions : List Action) (f later : List (List UInt8)) : Prop :=
  ∃ before during after t1 t2, actions = before ++ (during ++ after) ∧
    threadRun .useUDP start before = some t1 ∧ t1.remaining = f ++ later ∧
    threadRun .useUDP t1 during = some t2 ∧ t2.remaining = later ∧ ∀ a ∈ during, a = .video

theorem observed_sublist (frames : List (List UInt8)) (tests : List RtspState) :
    (observed frames tests).Sublist frames := by
  induction frames generalizing tests with
  | nil => exact List.Sublist.refl []
  | cons frame frames ih =>
    cases tests with
    | nil => exact List.nil_sublist _
    | cons state tests =>
      by_cases playing : state = .playing
      · simpa [observed, playing] using (ih tests).cons_cons frame
      · simpa [observed, playing] using (ih tests).cons frame

theorem observed_eq_nil_iff {frames : List (List UInt8)} {tests : List RtspState}
    (len : frames.length = tests.length) :
    observed frames tests = [] ↔ ∀ state ∈ tests, state ≠ .playing := by
  induction frames generalizing tests with
  | nil =>
    have none : tests = [] := List.eq_nil_of_length_eq_zero len.symm
    simp [none, observed]
  | cons frame frames ih =>
    cases tests with
    | nil => cases len
    | cons state tests =>
      have rest := ih (Nat.succ.inj len)
      by_cases playing : state = .playing
      · simp [observed, playing]
      · simpa [observed, playing] using rest

theorem observed_eq_self_iff {frames : List (List UInt8)} {tests : List RtspState}
    (len : frames.length = tests.length) :
    observed frames tests = frames ↔ ∀ state ∈ tests, state = .playing := by
  induction frames generalizing tests with
  | nil =>
    have none : tests = [] := List.eq_nil_of_length_eq_zero len.symm
    simp [none, observed]
  | cons frame frames ih =>
    cases tests with
    | nil => cases len
    | cons state tests =>
      have rest := ih (Nat.succ.inj len)
      by_cases playing : state = .playing
      · simpa [observed, playing] using rest
      · have fewer : observed (frame :: frames) (state :: tests) = observed frames tests := by
          simp [observed, playing]
        have short := (observed_sublist frames tests).length_le
        constructor
        · intro h
          rw [fewer] at h
          rw [h, List.length_cons] at short
          omega
        · intro all
          exact absurd (all state List.mem_cons_self) playing

theorem sendRTPPacket_state {tlayer : Transport} {s s' : Sender} {size : Nat} {sent : Sent}
    (send : sendRTPPacket tlayer s size = some (s', sent)) : s'.iRTSPState = s.iRTSPState := by
  obtain ⟨frame, _, send⟩ := Option.bind_eq_some_iff.mp send
  cases tlayer with
  | useTCP => exact congrArg (Sender.iRTSPState ∘ Prod.fst) (Option.some.inj send).symm
  | useUDP => exact congrArg (Sender.iRTSPState ∘ Prod.fst) (Option.some.inj send).symm

theorem queueFrame_state {s s' : Sender} {frame : List UInt8} {playing : Bool}
    (queue : queueFrame s frame = some (s', playing)) : s'.iRTSPState = s.iRTSPState := by
  obtain ⟨mem, _, queue⟩ := Option.bind_eq_some_iff.mp queue
  exact congrArg (Sender.iRTSPState ∘ Prod.fst) (Option.some.inj queue).symm

/-- A step of the video thread makes no call or one call, under the current state. -/
theorem video_step {tlayer : Transport} {t t' : VideoThread}
    (step : threadStep tlayer t .video = some t') :
    t'.sender.iRTSPState = t.sender.iRTSPState ∧
      (t'.remaining = t.remaining ∧ t'.tests = t.tests ∨
        (∃ frame, t.remaining = frame :: t'.remaining) ∧
          t'.tests = t.tests ++ [t.sender.iRTSPState]) := by
  cases sending : t.sending with
  | some size =>
    simp only [threadStep, sending, Option.bind_eq_bind] at step
    obtain ⟨⟨s, sent⟩, send, step⟩ := Option.bind_eq_some_iff.mp step
    have after := Option.some.inj step
    subst after
    exact ⟨sendRTPPacket_state send, Or.inl ⟨rfl, rfl⟩⟩
  | none =>
    cases remaining : t.remaining with
    | nil =>
      simp only [threadStep, sending, remaining] at step
      have after := Option.some.inj step
      subst after
      exact ⟨rfl, Or.inl ⟨remaining, rfl⟩⟩
    | cons frame rest =>
      simp only [threadStep, sending, remaining, Option.bind_eq_bind] at step
      obtain ⟨⟨s, playing⟩, queue, step⟩ := Option.bind_eq_some_iff.mp step
      have after := Option.some.inj step
      subst after
      exact ⟨queueFrame_state queue, Or.inr ⟨⟨frame, rfl⟩, rfl⟩⟩

theorem step_extends_tests {tlayer : Transport} {t t' : VideoThread} {a : Action}
    (step : threadStep tlayer t a = some t') : t.tests <+: t'.tests := by
  cases a with
  | assign state =>
    have after := Option.some.inj step
    subst after
    exact List.prefix_rfl
  | video =>
    rcases (video_step step).2 with ⟨_, tests⟩ | ⟨_, tests⟩
    · exact tests ▸ List.prefix_rfl
    · exact tests ▸ List.prefix_append _ _

theorem run_extends_tests {tlayer : Transport} {t t' : VideoThread} {actions : List Action}
    (run : threadRun tlayer t actions = some t') : t.tests <+: t'.tests := by
  have preserved : ∀ (s : VideoThread) (a : Action) (s' : VideoThread),
      t.tests <+: s.tests → threadStep tlayer s a = some s' → t.tests <+: s'.tests :=
    fun _ _ _ before step => before.trans (step_extends_tests step)
  exact TraceMachine.invariant_of_run _ preserved List.prefix_rfl run

/-- While the RTSP thread takes no step, all calls observe the same state. -/
theorem quiet_tests {tlayer : Transport} {t t' : VideoThread} {during : List Action}
    (quiet : ∀ a ∈ during, a = .video) (run : threadRun tlayer t during = some t') :
    ∃ made, t.remaining = made ++ t'.remaining ∧
      t'.tests = t.tests ++ List.replicate made.length t.sender.iRTSPState := by
  induction during generalizing t with
  | nil =>
    cases run
    exact ⟨[], rfl, (List.append_nil _).symm⟩
  | cons a during ih =>
    obtain ⟨t1, step, rest⟩ := Option.bind_eq_some_iff.mp run
    obtain ⟨made, remaining, tests⟩ := ih (fun b hb => quiet b (List.mem_cons_of_mem a hb)) rest
    have video : a = .video := quiet a List.mem_cons_self
    subst video
    obtain ⟨state, ⟨remaining1, tests1⟩ | ⟨⟨frame, remaining1⟩, tests1⟩⟩ := video_step step
    · rw [state, tests1] at tests
      exact ⟨made, remaining1.symm.trans remaining, tests⟩
    · refine ⟨frame :: made, ?_, ?_⟩
      · rw [remaining1, remaining, List.cons_append]
      · rw [tests, tests1, state, List.append_assoc, List.length_cons, List.replicate_succ]
        rfl

/-- The calls of the loop are the chunks of its flushes, in order. -/
theorem serverRun_calls {vid vid' : VideoBuffer} {frames : List EncodedFrame}
    {flushes : List (List (List UInt8))} (run : serverRun vid frames = some (vid', flushes)) :
    ∃ emissions, videoRun ⟨.useUDP, .useMJPEG, false⟩ vid frames = some (vid', emissions) ∧
      addFrameCalls emissions = flushes.flatten := by
  induction frames generalizing vid flushes with
  | nil =>
    cases run
    exact ⟨[], rfl, rfl⟩
  | cons frame frames ih =>
    obtain ⟨vid1, emissions, later, pass, rest, rfl⟩ := serverRun_cons run
    obtain ⟨emissions', run', calls⟩ := ih rest
    refine ⟨emissions ++ emissions', ?_, ?_⟩
    · simp only [videoRun, videoPass_udp_mjpeg, pass, run', Option.bind_eq_bind, Option.bind_some,
        Option.pure_def]
    · have append : addFrameCalls (emissions ++ emissions') =
          addFrameCalls emissions ++ addFrameCalls emissions' := List.filterMap_append
      rw [append, calls]
      by_cases flushes' : passFlushes vid frame.bytes = true
      · rw [if_pos flushes', List.flatten_cons]
      · rcases fragmentFrame_emits frame.nonempty pass with ⟨_, none⟩ | ⟨flushes, _⟩
        · rw [if_neg flushes', none]
          rfl
        · exact absurd flushes flushes'

theorem chunks_fit {vid vid' : VideoBuffer} {frames : List EncodedFrame}
    {flushes : List (List (List UInt8))} (run : serverRun vid frames = some (vid', flushes)) :
    ∀ c ∈ flushes.flatten, c.length ≤ frameQSize := by
  have larger : buffSize ≤ frameQSize := by decide
  intro c hc
  exact Nat.le_trans (received_datagrams run hc).2 larger

/-- The tests of a flush are one stretch of all tests. -/
theorem testsOf_split {earlier f later : List (List UInt8)} {tests : List RtspState}
    (len : tests.length = (earlier ++ (f ++ later)).length) :
    tests = tests.take earlier.length ++ (testsOf earlier f tests ++
        tests.drop (earlier.length + f.length)) ∧
      earlier.length = (tests.take earlier.length).length ∧
      f.length = (testsOf earlier f tests).length := by
  simp only [List.length_append] at len
  refine ⟨?_, ?_, ?_⟩
  · rw [testsOf, ← List.drop_drop, List.take_append_drop, List.take_append_drop]
  · rw [List.length_take]
    omega
  · rw [testsOf, List.length_take, List.length_drop]
    omega

theorem observed_split {earlier f later : List (List UInt8)} {tests : List RtspState}
    (len : tests.length = (earlier ++ (f ++ later)).length) :
    observed (earlier ++ (f ++ later)) tests = observed earlier (tests.take earlier.length) ++
      (sentOf earlier f tests ++ observed later (tests.drop (earlier.length + f.length))) := by
  obtain ⟨split, before, within⟩ := testsOf_split len
  calc observed (earlier ++ (f ++ later)) tests
      = observed (earlier ++ (f ++ later)) (tests.take earlier.length ++
          (testsOf earlier f tests ++ tests.drop (earlier.length + f.length))) :=
        congrArg _ split
    _ = observed earlier (tests.take earlier.length) ++ (observed f (testsOf earlier f tests) ++
          observed later (tests.drop (earlier.length + f.length))) := by
        rw [observed_append before, observed_append within]

/-- When all calls of a flush observe the same state, the flush is not divided. -/
theorem atomic_of_replicate {earlier f : List (List UInt8)} {tests : List RtspState}
    {state : RtspState} (same : testsOf earlier f tests = List.replicate f.length state) :
    sentOf earlier f tests = f ∨ sentOf earlier f tests = [] := by
  have len : f.length = (testsOf earlier f tests).length := by
    rw [same, List.length_replicate]
  have constant : ∀ s ∈ testsOf earlier f tests, s = state := by
    rw [same]
    exact fun s hs => List.eq_of_mem_replicate hs
  by_cases playing : state = .playing
  · left
    exact (observed_eq_self_iff len).mpr fun s hs => (constant s hs).trans playing
  · right
    exact (observed_eq_nil_iff len).mpr fun s hs h => playing ((constant s hs).symm.trans h)

/-- Without a step of the RTSP thread during the flush its calls observe one state. -/
theorem quiet_replicate {start t : VideoThread} {actions : List Action}
    {earlier f later : List (List UInt8)}
    (fits : ∀ c ∈ earlier ++ (f ++ later), c.length ≤ frameQSize)
    (inv : ThreadInv .useUDP (earlier ++ (f ++ later)) start)
    (run : threadRun .useUDP start actions = some t) (quiet : Quiet start actions f later) :
    ∃ state, testsOf earlier f t.tests = List.replicate f.length state := by
  obtain ⟨before, during, after, t1, t2, rfl, run1, remaining1, run2, remaining2, video⟩ := quiet
  obtain ⟨t1', run1', inv1⟩ := threadRun_inv fits inv before
  have same : t1 = t1' := Option.some.inj (run1.symm.trans run1')
  subst same
  obtain ⟨made, remaining, tests2⟩ := quiet_tests video run2
  have all : made = f := by
    rw [remaining1, remaining2] at remaining
    exact (List.append_cancel_right remaining).symm
  subst all
  have position : t1.tests.length = earlier.length := by
    have calls := congrArg List.length inv1.calls
    have bound := inv1.made
    rw [remaining1, List.length_drop] at calls
    simp only [List.length_append] at calls bound
    omega
  obtain ⟨more, tests⟩ :=
    run_extends_tests (TraceMachine.run_append _ run2 (TraceMachine.run_append _ run1 run))
  refine ⟨t1.sender.iRTSPState, ?_⟩
  rw [testsOf, ← tests, tests2, List.append_assoc, ← position, List.drop_left]
  exact List.take_left' (List.length_replicate ..)

/-- A call that observes PLAYING and sends its chunk. -/
theorem call_sends {sender : Sender} {c : List UInt8} {rest : List (List UInt8)} {wire : List Sent}
    {tests : List RtspState} (playing : sender.iRTSPState = .playing)
    (fits : c.length ≤ frameQSize) :
    ∃ sender', threadRun .useUDP ⟨sender, c :: rest, none, wire, tests⟩ [.video, .video] =
        some ⟨sender', rest, none, wire ++ [.udp c], tests ++ [.playing]⟩ ∧
      sender'.iRTSPState = .playing := by
  obtain ⟨s1, queue, state1, queued⟩ := queueFrame_spec sender c fits
  obtain ⟨s2, send, state2, _⟩ := sendRTPPacket_spec .useUDP queued fits
  have observes : decide (sender.iRTSPState = .playing) = true := decide_eq_true playing
  rw [observes] at queue
  refine ⟨s2, ?_, by rw [state2, state1, playing]⟩
  simp only [threadRun, TraceMachine.run, threadStep, queue, send, wrap, playing,
    Option.bind_eq_bind, Option.bind_some, if_true, Option.pure_def]

/-- A call that does not observe PLAYING. -/
theorem call_skips {sender : Sender} {c : List UInt8} {rest : List (List UInt8)} {wire : List Sent}
    {tests : List RtspState} (idle : sender.iRTSPState ≠ .playing) (fits : c.length ≤ frameQSize) :
    ∃ sender', threadRun .useUDP ⟨sender, c :: rest, none, wire, tests⟩ [.video] =
      some ⟨sender', rest, none, wire, tests ++ [sender.iRTSPState]⟩ := by
  obtain ⟨s1, queue, _⟩ := queueFrame_spec sender c fits
  have observes : decide (sender.iRTSPState = .playing) = false := decide_eq_false idle
  rw [observes] at queue
  refine ⟨s1, ?_⟩
  simp only [threadRun, TraceMachine.run, threadStep, queue, Option.bind_eq_bind, Option.bind_some,
    Bool.false_eq_true, if_false, Option.pure_def]

/-- A SETUP between the two chunks of a flush. -/
theorem divided_calls {c0 c1 : List UInt8} (rest : List (List UInt8))
    (fits0 : c0.length ≤ frameQSize) (fits1 : c1.length ≤ frameQSize) :
    ∃ sender, threadRun .useUDP (.start (.cleared .playing) (c0 :: c1 :: rest))
      [.video, .video, .assign .ready, .video] =
        some ⟨sender, rest, none, [.udp c0], [.playing, .ready]⟩ := by
  obtain ⟨s1, sends, _⟩ := @call_sends (.cleared .playing) c0 (c1 :: rest) [] [] rfl fits0
  obtain ⟨s2, skips⟩ := @call_skips { s1 with iRTSPState := .ready } c1 rest [.udp c0] [.playing]
    RtspState.noConfusion fits1
  exact ⟨s2, TraceMachine.run_trans _ sends skips⟩

/-- Two calls without a step of the RTSP thread between them. -/
theorem whole_calls {sender : Sender} {c0 c1 : List UInt8} {rest : List (List UInt8)}
    {wire : List Sent} {tests : List RtspState} (playing : sender.iRTSPState = .playing)
    (fits0 : c0.length ≤ frameQSize) (fits1 : c1.length ≤ frameQSize) :
    ∃ sender', threadRun .useUDP ⟨sender, c0 :: c1 :: rest, none, wire, tests⟩
      [.video, .video, .video, .video] = some ⟨sender', rest, none, wire ++ [.udp c0] ++ [.udp c1],
        tests ++ [.playing] ++ [.playing]⟩ := by
  obtain ⟨s1, sends, playing1⟩ := @call_sends _ _ (c1 :: rest) wire tests playing fits0
  obtain ⟨s2, sends', _⟩ :=
    @call_sends s1 _ rest (wire ++ [.udp c0]) (tests ++ [.playing]) playing1 fits1
  exact ⟨s2, TraceMachine.run_trans _ sends sends'⟩

theorem two_flushes :
    ∃ vid', serverRun .cleared
        [zeroFrame 20001 (by decide) (by decide), zeroFrame 20002 (by decide) (by decide)] =
      some (vid',
        [flushChunks (List.replicate 20001 0), flushChunks (List.replicate 20002 0)]) := by
  refine @serverRun_each .cleared rfl
    [zeroFrame 20001 (by decide) (by decide), zeroFrame 20002 (by decide) (by decide)] ?_
  simp only [List.forall_mem_cons, zeroFrame, List.length_replicate]
  decide

/-- What is sent of a flush is decided call by call: the chunks whose call observed
PLAYING. It is not divided when the RTSP thread takes no step between its first and
last call, and never when it is a single chunk. -/
theorem flush_sent_by_tests (vid vid' : VideoBuffer) (frames : List EncodedFrame)
    (flushes : List (List (List UInt8))) (run : serverRun vid frames = some (vid', flushes))
    (sender : Sender) (actions : List Action) :
    ∃ t, threadRun .useUDP (.start sender flushes.flatten) actions = some t ∧
      (t.Finished → ∀ earlier f later, flushes = earlier ++ f :: later →
        t.wire = (observed earlier.flatten (t.tests.take earlier.flatten.length) ++
          (sentOf earlier.flatten f t.tests ++ observed later.flatten
            (t.tests.drop (earlier.flatten.length + f.length)))).map .udp ∧
        (testsOf earlier.flatten f t.tests).length = f.length ∧
        (sentOf earlier.flatten f t.tests).Sublist f ∧
        (sentOf earlier.flatten f t.tests = f ↔
          ∀ state ∈ testsOf earlier.flatten f t.tests, state = .playing) ∧
        (sentOf earlier.flatten f t.tests = [] ↔
          ∀ state ∈ testsOf earlier.flatten f t.tests, state ≠ .playing) ∧
        (Quiet (.start sender flushes.flatten) actions f later.flatten ∨ f.length = 1 →
          sentOf earlier.flatten f t.tests = f ∨ sentOf earlier.flatten f t.tests = [])) := by
  have fits := chunks_fit run
  have start := start_inv .useUDP sender flushes.flatten
  obtain ⟨t, thread, inv⟩ := threadRun_inv fits start actions
  refine ⟨t, thread, ?_⟩
  rintro finished earlier f later rfl
  obtain ⟨wire, made⟩ := threadRun_wire inv finished
  have calls : (earlier ++ f :: later).flatten = earlier.flatten ++ (f ++ later.flatten) := by
    rw [List.flatten_append, List.flatten_cons]
  rw [calls] at wire made fits start thread ⊢
  obtain ⟨_, _, within⟩ := testsOf_split made
  refine ⟨?_, within.symm, observed_sublist _ _, observed_eq_self_iff within,
    observed_eq_nil_iff within, ?_⟩
  · rw [wire, observed_split made]
    rfl
  · rintro (quiet | single)
    · obtain ⟨state, same⟩ := quiet_replicate fits start thread quiet
      exact atomic_of_replicate same
    · have one : (testsOf earlier.flatten f t.tests).length = 1 := within.symm.trans single
      obtain ⟨state, same⟩ := List.length_eq_one_iff.mp one
      have same' : testsOf earlier.flatten f t.tests = List.replicate f.length state := by
        rw [same, single]
        rfl
      exact atomic_of_replicate same'

/-- A SETUP between the chunks of a flush divides it; the flush after the next PLAY is whole. -/
theorem flushes_by_tests : ∃ vid' t, serverRun .cleared
      [zeroFrame 20001 (by decide) (by decide), zeroFrame 20002 (by decide) (by decide)] =
        some (vid', [flushChunks (List.replicate 20001 0), flushChunks (List.replicate 20002 0)]) ∧
    threadRun .useUDP (.start (.cleared .playing)
        [flushChunks (List.replicate 20001 0), flushChunks (List.replicate 20002 0)].flatten)
      ([.video, .video, .assign .ready, .video, .assign .playing] ++
        ([.video, .video, .video, .video] ++ [])) = some t ∧ t.Finished ∧
    sentOf [] (flushChunks (List.replicate 20001 0)) t.tests ≠
      flushChunks (List.replicate 20001 0) ∧
    sentOf [] (flushChunks (List.replicate 20001 0)) t.tests ≠ [] ∧
    sentOf (flushChunks (List.replicate 20001 0)) (flushChunks (List.replicate 20002 0)) t.tests =
      flushChunks (List.replicate 20002 0) := by
  obtain ⟨vid', run⟩ := two_flushes
  have fits := chunks_fit run
  obtain ⟨c0, c1, chunks⟩ : ∃ c0 c1, flushChunks (List.replicate 20001 0) = [c0, c1] :=
    ⟨_, _, flushChunks_replicate (by decide) (by decide) 0⟩
  obtain ⟨d0, d1, chunks'⟩ : ∃ d0 d1, flushChunks (List.replicate 20002 0) = [d0, d1] :=
    ⟨_, _, flushChunks_replicate (by decide) (by decide) 0⟩
  obtain ⟨t, thread, sent⟩ := flush_sent_by_tests _ vid' _ _ run (.cleared .playing)
    ([.video, .video, .assign .ready, .video, .assign .playing] ++
      ([.video, .video, .video, .video] ++ []))
  rw [chunks, chunks'] at run fits thread sent ⊢
  simp only [List.flatten_cons, List.flatten_nil, List.cons_append, List.nil_append,
    List.forall_mem_cons] at fits
  obtain ⟨fits0, fits1, fits2, fits3, _⟩ := fits
  obtain ⟨s1, divided⟩ := divided_calls [d0, d1] fits0 fits1
  have before := TraceMachine.run_trans _ divided
    (show threadRun .useUDP _ [.assign .playing] = some _ from rfl)
  obtain ⟨s2, during⟩ := @whole_calls { s1 with iRTSPState := .playing } d0 d1 [] [.udp c0]
    [.playing, .ready] rfl fits2 fits3
  have whole := TraceMachine.run_trans _ before during
  obtain rfl := Option.some.inj (thread.symm.trans whole)
  have calls := sent ⟨rfl, rfl⟩
  obtain ⟨_, _, _, all, none, _⟩ := calls [] [c0, c1] [[d0, d1]] rfl
  obtain ⟨_, _, _, _, none', atomic⟩ := calls [[c0, c1]] [d0, d1] [] rfl
  have quiet : Quiet (.start (.cleared .playing) [[c0, c1], [d0, d1]].flatten)
      ([.video, .video, .assign .ready, .video, .assign .playing] ++
        ([.video, .video, .video, .video] ++ [])) [d0, d1] [] :=
    ⟨_, _, [], _, _, rfl, before, rfl, during, rfl, by decide⟩
  refine ⟨vid', _, run, thread, ⟨rfl, rfl⟩, fun same => ?_, fun same => ?_, ?_⟩
  · cases all.mp same .ready (.tail _ (.head _))
  · exact none.mp same .playing (.head _) rfl
  · exact (atomic (Or.inl quiet)).resolve_right fun same => none'.mp same .playing (.head _) rfl

/-- A SETUP between the two chunks of a flush of 20001 bytes: the first chunk has been
sent and the last one is not. -/
theorem flush_divided :
    ∃ vid' t, serverRun .cleared [zeroFrame 20001 (by decide) (by decide)] =
        some (vid', [flushChunks (List.replicate 20001 0)]) ∧
      threadRun .useUDP
        (.start (.cleared .playing) [flushChunks (List.replicate 20001 0)].flatten)
        [.video, .video, .assign .ready, .video] = some t ∧ t.Finished ∧
      t.wire.length = 1 ∧ ¬ FlushAtomic [flushChunks (List.replicate 20001 0)] t.tests := by
  obtain ⟨vid', run⟩ := cleared_flushes 20001 (by decide) (by decide) (by decide) (by decide)
  have fits := chunks_fit run
  obtain ⟨c0, c1, chunks⟩ : ∃ c0 c1, flushChunks (List.replicate 20001 0) = [c0, c1] :=
    ⟨_, _, flushChunks_replicate (by decide) (by decide) 0⟩
  rw [chunks] at run fits ⊢
  obtain ⟨sender, thread⟩ :=
    divided_calls [] (fits c0 List.mem_cons_self) (fits c1 (.tail _ (.head _)))
  refine ⟨vid', _, run, thread, ⟨rfl, rfl⟩, rfl, fun atomic => ?_⟩
  have divided : sentOf ([] : List (List (List UInt8))).flatten [c0, c1] [.playing, .ready] =
      [c0] := rfl
  rcases atomic [] [c0, c1] [] rfl with all | none
  · rw [divided] at all
    cases all
  · rw [divided] at none
    cases none

end FlushInterleaving
