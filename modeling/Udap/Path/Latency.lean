import Udap.Lib.Run
import Udap.Path.Builder
import Udap.Path.Onion
import Udap.Routing.Message

/-!
The latency test of a path: `HandlePathConfirmMessage` sends it, `HandlePathLatencyMessage` takes
the answer.

The id of the test is zero before there is one, a number that was left out of a message reads as
zero, and the id stays when the answer has come.

* `answer_taken`: the answer of the last hop is taken;
* `measured_tested`: after the test each answer with its id is taken, so only the first one should
  come;
* `measured_iff`: the runs in which no answer is taken that was not asked for.
-/

namespace Udap

open ByteMem Routing

/-! ### The handlers -/

/-- What the handlers do, for the results about whole runs. -/
inductive LatencyEvent
  /-- a `PathLatencyMessage` with this `T` was sent -/
  | sent (T : UInt64)
  /-- the latency was set for this `L` -/
  | answered (L : UInt64)
  deriving DecidableEq

/-- The fields of a `Path` that the test uses. -/
structure PathTest where
  status : PathStatus
  latency : UInt64 := 0
  lastLatencyTestTime : UInt64 := 0
  lastLatencyTestID : UInt64 := 0
  log : List LatencyEvent := []

/-- A payload that arrives, and what its handler takes from its surroundings. -/
structure Arrival where
  buf : Buffer
  now : UInt64 := 0
  /-- `rand` -/
  random : UInt64 := 0
  /-- the stack, for a message that is sent -/
  tmp : ℕ → UInt8 := fun _ => 0
  /-- `SendToOrQueue` -/
  upstream : Bool := true

namespace Arrival

/-- The message that `ParseMessageBuffer` hands over. -/
def message (a : Arrival) : Option Message :=
  match Routing.InboundMessageParser.parse {} a.buf with
  | (p, some _) => p.msg
  | (_, none) => none

/-- `SendRoutingMessage`. -/
def sendRoutingMessage (m : PathLatencyMessage) (a : Arrival) : Bool :=
  (encodeRouting m.bencode a.tmp).isSome && a.upstream

/-- The payload is an answer to the test with this id. -/
def Answers (id : UInt64) (a : Arrival) : Prop :=
  ∃ m, a.message = some (.pathLatency m) ∧ m.L = id

instance (id : UInt64) (a : Arrival) : Decidable (a.Answers id) :=
  match h : a.message with
  | some (.pathLatency m) =>
      decidable_of_iff (m.L = id) ⟨fun hid => ⟨m, h, hid⟩, fun ⟨_, hm, hid⟩ =>
        (Message.pathLatency.inj (Option.some.inj (h.symm.trans hm))) ▸ hid⟩
  | some (.pathConfirm _) => isFalse fun ⟨_, hm, _⟩ => nomatch h.symm.trans hm
  | none => isFalse fun ⟨_, hm, _⟩ => nomatch h.symm.trans hm

end Arrival

/-- `TransitHop::HandlePathLatencyMessage`: the answer of the last hop. -/
def TransitHop.latencyReply (msg : PathLatencyMessage) : PathLatencyMessage := { L := msg.T }

namespace PathTest

variable (a : Arrival) (p : PathTest)

/-- `HandlePathConfirmMessage`. -/
def handlePathConfirmMessage : PathTest × Bool :=
  if p.status = .building then
    let latency : PathLatencyMessage := { T := a.random }
    let p := { p with
      status := .established
      lastLatencyTestID := latency.T
      lastLatencyTestTime := a.now }
    if a.sendRoutingMessage latency then ({ p with log := p.log ++ [.sent latency.T] }, true)
    else (p, false)
  else (p, false)

/-- `HandlePathLatencyMessage`. -/
def handlePathLatencyMessage (msg : PathLatencyMessage) : PathTest × Bool :=
  if msg.L = p.lastLatencyTestID then
    ({ p with latency := a.now - p.lastLatencyTestTime, log := p.log ++ [.answered msg.L] }, true)
  else (p, false)

/-- `HandleRoutingMessage`. -/
def handleRoutingMessage : PathTest × Bool :=
  match a.message with
  | none => (p, false)
  | some (.pathConfirm _) => p.handlePathConfirmMessage a
  | some (.pathLatency m) => p.handlePathLatencyMessage a m

/-- The path after a payload. -/
def step (p : PathTest) (a : Arrival) : PathTest := (p.handleRoutingMessage a).1

/-- An answer is taken only if a test with its id was sent that has not been answered. -/
def Measured (p : PathTest) (a : Arrival) : Prop :=
  ∀ m, a.message = some (.pathLatency m) → (p.handlePathLatencyMessage a m).2 = true →
    p.log.count (.answered m.L) < p.log.count (.sent m.L)

/-! ### Single payloads -/

variable {a p} {m : PathLatencyMessage}

/-- A test that could not be told to the other routers is not one that was sent. -/
lemma sendRoutingMessage_eq (m : PathLatencyMessage) : a.sendRoutingMessage m = a.upstream := by
  have hencode : encodeRouting m.bencode a.tmp = some m.encoding :=
    encodeRouting_eq m.sure_bencode (m.encoding_length_le.trans (by norm_num)) a.tmp
  rw [Arrival.sendRoutingMessage, hencode]
  rfl

lemma step_none (h : a.message = none) : p.step a = p := by
  rw [step, handleRoutingMessage, h]

lemma step_pathConfirm {c : PathConfirmMessage} (h : a.message = some (.pathConfirm c)) :
    p.step a = (p.handlePathConfirmMessage a).1 := by
  rw [step, handleRoutingMessage, h]

lemma step_pathLatency (h : a.message = some (.pathLatency m)) :
    p.step a = (p.handlePathLatencyMessage a m).1 := by
  rw [step, handleRoutingMessage, h]

lemma handlePathLatency_eq_true : (p.handlePathLatencyMessage a m).2 = true ↔
    m.L = p.lastLatencyTestID := by
  rw [handlePathLatencyMessage]
  split_ifs with h
  · exact iff_of_true rfl h
  · exact iff_of_false id h

/-- Nothing but an answer to a test counts. -/
lemma measured_of_not_answers (h : ¬ a.Answers p.lastLatencyTestID) : p.Measured a :=
  fun m hm hok => absurd ⟨m, hm, handlePathLatency_eq_true.mp hok⟩ h

lemma measured_of_answers (h : a.Answers p.lastLatencyTestID) : p.Measured a ↔
    p.log.count (.answered p.lastLatencyTestID) < p.log.count (.sent p.lastLatencyTestID) := by
  obtain ⟨m, hm, hid⟩ := h
  rw [← hid]
  constructor
  · exact fun hmeasured => hmeasured m hm (handlePathLatency_eq_true.mpr hid)
  · intro hlt m' hm' hok
    obtain rfl := Message.pathLatency.inj (Option.some.inj (hm.symm.trans hm'))
    exact hlt

lemma step_of_answers (h : a.Answers p.lastLatencyTestID) : p.step a =
    { p with
      latency := a.now - p.lastLatencyTestTime
      log := p.log ++ [.answered p.lastLatencyTestID] } := by
  obtain ⟨m, hm, hid⟩ := h
  rw [step_pathLatency hm, handlePathLatencyMessage, if_pos hid, hid]

/-- What does not answer the test, and does not start one, changes nothing. -/
lemma step_of_not_answers (h : ¬ a.Answers p.lastLatencyTestID)
    (hconfirm : p.status = .building → ∀ c, a.message ≠ some (.pathConfirm c)) : p.step a = p := by
  cases hm : a.message with
  | none => exact step_none hm
  | some msg =>
      cases msg with
      | pathLatency m =>
          rw [step_pathLatency hm, handlePathLatencyMessage, if_neg fun hid => h ⟨m, hm, hid⟩]
      | pathConfirm c =>
          rw [step_pathConfirm hm, handlePathConfirmMessage,
            if_neg fun hstatus => hconfirm hstatus c hm]

/-- The confirmation of a path that is being built: the test. -/
lemma step_confirm {c : PathConfirmMessage} (hm : a.message = some (.pathConfirm c))
    (hstatus : p.status = .building) : p.step a =
      { p with
        status := .established
        lastLatencyTestID := a.random
        lastLatencyTestTime := a.now
        log := if a.upstream then p.log ++ [.sent a.random] else p.log } := by
  rw [step_pathConfirm hm, handlePathConfirmMessage, if_pos hstatus]
  simp only [sendRoutingMessage_eq]
  cases a.upstream <;> rfl

/-! ### Runs -/

/-- The number of answers to the test with an id. -/
def answers (id : UInt64) (as : List Arrival) : ℕ := as.countP fun a => a.Answers id

/-- After the test the answers are taken as they come, so they should not be more than the tests
that were sent. -/
lemma measured_tested (as : List Arrival) (hstatus : p.status ≠ .building)
    (hle : p.log.count (.answered p.lastLatencyTestID) ≤ p.log.count (.sent p.lastLatencyTestID)) :
    Along step Measured p as ↔ p.log.count (.answered p.lastLatencyTestID) +
      answers p.lastLatencyTestID as ≤ p.log.count (.sent p.lastLatencyTestID) := by
  induction as generalizing p with
  | nil => exact iff_of_true trivial hle
  | cons a as ih =>
      rw [Along, answers, List.countP_cons]
      by_cases ha : a.Answers p.lastLatencyTestID
      · -- one answer more has come, and the tests are the same
        have hanswered : (p.step a).log.count (.answered p.lastLatencyTestID) =
            p.log.count (.answered p.lastLatencyTestID) + 1 := by
          simp [step_of_answers ha]
        have hsent : (p.step a).log.count (.sent p.lastLatencyTestID) =
            p.log.count (.sent p.lastLatencyTestID) := by
          simp [step_of_answers ha]
        have hid : (p.step a).lastLatencyTestID = p.lastLatencyTestID := by
          rw [step_of_answers ha]
        have hestablished : (p.step a).status ≠ .building := by
          rwa [step_of_answers ha]
        have hnext := ih hestablished
        rw [hid, hanswered, hsent, answers] at hnext
        rw [measured_of_answers ha, if_pos (decide_eq_true ha)]
        constructor
        · rintro ⟨hlt, hrest⟩
          have hcount := (hnext hlt).mp hrest
          omega
        · intro hcount
          have hlt : p.log.count (.answered p.lastLatencyTestID) <
              p.log.count (.sent p.lastLatencyTestID) := by omega
          exact ⟨hlt, (hnext hlt).mpr (by omega)⟩
      · rw [step_of_not_answers ha fun hs => absurd hs hstatus,
          and_iff_right (measured_of_not_answers ha), ih hstatus hle]
        simp [ha, answers]

/-- Before the test no answer comes with the number zero, or with none; and after it at most one
comes, if the test was sent. -/
def InTime : Bool → List Arrival → Prop
  | _, [] => True
  | building, a :: as =>
    match a.message with
    | none => InTime building as
    | some (.pathLatency m) => m.L ≠ 0 ∧ InTime building as
    | some (.pathConfirm _) =>
      if building then answers a.random as ≤ a.upstream.toNat else InTime building as

/-- Nothing was tested yet. -/
structure Untested (p : PathTest) : Prop where
  lastLatencyTestID : p.lastLatencyTestID = 0
  log : p.log = []

lemma Untested.not_measured (h : p.Untested) (ha : a.Answers 0) : ¬ p.Measured a := by
  rw [← h.lastLatencyTestID] at ha
  rw [measured_of_answers ha, h.log]
  exact Nat.lt_irrefl 0

/-- The test itself: from here on the answers are counted. -/
lemma Untested.measured_confirm (h : p.Untested) {c : PathConfirmMessage}
    (hm : a.message = some (.pathConfirm c)) (hstatus : p.status = .building) (as : List Arrival) :
    Along step Measured (p.step a) as ↔ answers a.random as ≤ a.upstream.toNat := by
  have hstep := step_confirm hm hstatus
  rw [h.log] at hstep
  have hestablished : (p.step a).status ≠ .building := by
    rw [hstep]
    exact PathStatus.noConfusion
  have hid : (p.step a).lastLatencyTestID = a.random := by rw [hstep]
  have hanswered : (p.step a).log.count (.answered a.random) = 0 := by
    rw [hstep]
    cases a.upstream <;> simp
  have hsent : (p.step a).log.count (.sent a.random) = a.upstream.toNat := by
    rw [hstep]
    cases a.upstream <;> simp
  have htested := measured_tested as hestablished
  rw [hid, hanswered, hsent, Nat.zero_add] at htested
  exact htested (Nat.zero_le _)

/-- The runs of a path in which every latency is measured against a test that was sent and has not
been answered. -/
lemma Untested.along_measured_iff (h : p.Untested) (as : List Arrival) :
    Along step Measured p as ↔ InTime (p.status = .building) as := by
  induction as with
  | nil => exact Iff.rfl
  | cons a as ih =>
      rw [Along, InTime]
      cases hm : a.message with
      | none =>
          have hother : ¬ a.Answers p.lastLatencyTestID := by
            rintro ⟨m, hm', -⟩
            exact Option.some_ne_none _ (hm'.symm.trans hm)
          rw [step_none hm, and_iff_right (measured_of_not_answers hother)]
          exact ih
      | some msg =>
          cases msg with
          | pathLatency m =>
              by_cases hzero : m.L = 0
              · exact iff_of_false (fun hboth => h.not_measured ⟨m, hm, hzero⟩ hboth.1)
                  fun hboth => hboth.1 hzero
              · have hother : ¬ a.Answers p.lastLatencyTestID := by
                  rintro ⟨m', hm', hid⟩
                  obtain rfl := Message.pathLatency.inj (Option.some.inj (hm.symm.trans hm'))
                  exact hzero (hid.trans h.lastLatencyTestID)
                have hstep : p.step a = p := step_of_not_answers hother fun _ c hc => by
                  cases hm.symm.trans hc
                rw [hstep]
                exact and_congr (iff_of_true (measured_of_not_answers hother) hzero) ih
          | pathConfirm c =>
              have hother : ¬ a.Answers p.lastLatencyTestID := by
                rintro ⟨m, hm', -⟩
                cases hm.symm.trans hm'
              rw [and_iff_right (measured_of_not_answers hother)]
              by_cases hstatus : p.status = .building
              · rw [h.measured_confirm hm hstatus as]
                simp [hstatus]
              · rw [step_of_not_answers hother fun hs => absurd hs hstatus, ih]
                simp [hstatus]

/-- A path in any status, on which any payloads arrive: every latency is measured against a test
that was sent and has not been answered exactly if no answer comes before the test or twice. -/
theorem measured_iff (status : PathStatus) (as : List Arrival) :
    Along step Measured { status := status } as ↔ InTime (status = .building) as :=
  Untested.along_measured_iff ⟨rfl, rfl⟩ as

/-- A latency message without a number, on a path that is not confirmed. -/
theorem not_measured_before_test :
    ¬ Along step Measured { status := .building }
      [{ buf := .ofBytes ("d1:A1:Le".toList.map ascii) fun _ => 0, now := 1000 }] := by
  have hzero : Arrival.Answers 0
      { buf := .ofBytes ("d1:A1:Le".toList.map ascii) fun _ => 0, now := 1000 } :=
    ⟨{}, by decide +kernel, rfl⟩
  exact fun h => Untested.not_measured ⟨rfl, rfl⟩ hzero h.1

/-- The answer of the last hop, when it comes first after the test: the latency is the time between
the two. -/
lemma answer_taken {c : PathConfirmMessage} (hm : a.message = some (.pathConfirm c))
    (hstatus : p.status = .building) (hrandom : a.random ≠ -1) {reply : Arrival}
    (hreply : reply.buf.Holds (TransitHop.latencyReply { T := a.random }).encoding) :
    ((p.step a).step reply).latency = reply.now - a.now ∧
      ((p.step a).step reply).log = (p.step a).log ++ [.answered a.random] := by
  have hzero : (0 : UInt64) ≠ -1 := by decide
  obtain ⟨q, hparse, hmsg⟩ :=
    Routing.InboundMessageParser.reads_parse_pathLatency (m := { L := a.random }) hrandom hzero {}
      reply.buf hreply
  have hmessage : reply.message = some (.pathLatency { L := a.random }) := by
    rw [Arrival.message, hparse]
    exact hmsg
  have hid : (p.step a).lastLatencyTestID = a.random := by rw [step_confirm hm hstatus]
  have hanswers : reply.Answers (p.step a).lastLatencyTestID := ⟨_, hmessage, hid.symm⟩
  have htime : (p.step a).lastLatencyTestTime = a.now := by rw [step_confirm hm hstatus]
  rw [step_of_answers hanswers, hid, htime]
  exact ⟨rfl, rfl⟩

end PathTest

end Udap
