import Udap.Iwp.Moves
import Mathlib.Logic.Relation

/-!
Two ends of a session over a network that drops, duplicates and reorders frames.

* `Net` holds the two sessions; the frames an end has written and the network still holds are
  its `outbound` list. `Step` is one event: an action of an end (`Act`), a delivery, a loss, a
  duplication, the passing of time.
* `Step.rule`: what the moves of an end and the loss of its frames keep is kept by every step.
* `Honest`: every frame in flight is one its author writes for a message it queued, and every
  message of `tx` is a queued one cut up. It holds in every reachable state
  (`honest_of_reachable`).
-/

namespace Udap.Iwp

open ByteMem TransitMessage

/-- The two ends of a session. -/
inductive Side where
  | initiator | responder
  deriving DecidableEq, Repr

/-- The end at the other side. -/
def Side.other : Side → Side
  | .initiator => .responder
  | .responder => .initiator

@[simp] lemma Side.other_other (p : Side) : p.other.other = p := by cases p <;> rfl

@[simp] lemma Side.other_ne (p : Side) : p.other ≠ p := by cases p <;> decide

@[simp] lemma Side.ne_other (p : Side) : p ≠ p.other := p.other_ne.symm

/-- An end is the given one or the other one. -/
lemma Side.eq_or_eq_other (p q : Side) : q = p ∨ q = p.other := by
  cases p <;> cases q <;> simp [Side.other]

/-- The routers behind the two ends; both use one hash function. -/
structure Link (σ : Type) where
  env : Side → LinkEnv σ
  shorthash : Bytes → Blob 32
  shorthash_eq : ∀ p, (env p).shorthash = shorthash

/-- The two ends and the time. The frames on their way to an end are the `outbound` list of the
other one. -/
structure Net (σ : Type) where
  ends : Side → Session σ
  clock : UInt64

namespace Net

variable {σ : Type}

/-- The state of one end is replaced. -/
def set (p : Side) (s : Session σ) (n : Net σ) : Net σ :=
  { n with ends := Function.update n.ends p s }

/-- The frames on their way to an end. -/
def inflight (n : Net σ) (p : Side) : List Bytes := (n.ends p.other).outbound

/-- The frames on their way to `p` are replaced. -/
def carry (p : Side) (frames : List Bytes) (n : Net σ) : Net σ :=
  n.set p.other { n.ends p.other with outbound := frames }

section

variable (n : Net σ) (p : Side) (s : Session σ) (frames : List Bytes)

@[simp] lemma set_ends_self : (n.set p s).ends p = s := Function.update_self ..

@[simp] lemma set_ends_other : (n.set p s).ends p.other = n.ends p.other :=
  Function.update_of_ne p.other_ne ..

@[simp] lemma set_other_ends : (n.set p.other s).ends p = n.ends p :=
  Function.update_of_ne p.ne_other ..

@[simp] lemma set_clock : (n.set p s).clock = n.clock := rfl

@[simp] lemma carry_ends_self : (n.carry p frames).ends p = n.ends p := n.set_other_ends p _

@[simp] lemma carry_ends_other :
    (n.carry p frames).ends p.other = { n.ends p.other with outbound := frames } :=
  n.set_ends_self p.other _

@[simp] lemma carry_other_ends :
    (n.carry p.other frames).ends p = { n.ends p with outbound := frames } := by
  rw [carry, Side.other_other, set_ends_self]

@[simp] lemma inflight_other : n.inflight p.other = (n.ends p).outbound := by
  rw [inflight, Side.other_other]

@[simp] lemma carry_clock : (n.carry p frames).clock = n.clock := rfl

end

/-- No message has been sent or received yet. -/
def Initial (n : Net σ) : Prop :=
  ∀ p, (n.ends p).frame.rx = ∅ ∧ (n.ends p).frame.tx = ∅ ∧ (n.ends p).frame.sendqueue = [] ∧
    (n.ends p).frame.rxflags = 0 ∧ (n.ends p).frame.txflags = 0 ∧ (n.ends p).outbound = [] ∧
    (n.ends p).handed = [] ∧ (n.ends p).queued = []

end Net

/-! ### Steps -/

/-- What an end may do of its own accord. -/
inductive Action where
  /-- the router sends a message -/
  | send (m : LinkMessage)
  /-- the handshake is over and the link introduction is sent -/
  | introduce
  /-- the router closes the session -/
  | close
  /-- a queued job runs `send_keepalive` -/
  | keepalive
  /-- the server runs `Tick` while a handshake job is running or not -/
  | tick (working : Bool)

/-- The action of an end at time `now`; after a `Tick` the session stays. -/
inductive Act {σ : Type} (env : LinkEnv σ) (now : UInt64) (s : Session σ) :
    Action → Session σ → Prop
  | send (m : LinkMessage) : Act env now s (.send m) (s.sendto env m)
  | introduce : Act env now s .introduce (s.sendLIM env now)
  | close : Act env now s .close s.close
  | keepalive : 0 < s.keepaliveJobs →
      Act env now s .keepalive { s with keepaliveJobs := s.keepaliveJobs - 1 }.sendKeepalive
  | tick (working : Bool) {s' : Session σ} :
      s.tick now working = .ok (s', false) → Act env now s (.tick working) s'

/-- An event of the exchange. -/
inductive Event where
  | act (p : Side) (a : Action)
  /-- a frame arrives at `p`, with the padding it was encrypted with -/
  | deliver (p : Side) (f : Bytes) (pad : Padding)
  /-- the network loses or copies a frame on its way to `p` -/
  | drop (p : Side) (f : Bytes)
  | dup (p : Side) (f : Bytes)
  /-- time passes -/
  | wait (now : UInt64)

/-- One step of the exchange. An end that its server has removed is one that takes part in no
further event. -/
inductive Step {σ : Type} (L : Link σ) (n : Net σ) : Event → Net σ → Prop
  | act (p : Side) {a : Action} {s : Session σ} : Act (L.env p) n.clock (n.ends p) a s →
      Step L n (.act p a) (n.set p s)
  | deliver (p : Side) {f : Bytes} (pad : Padding) {s : Session σ} : f ∈ n.inflight p →
      (n.ends p).handleFrameDecrypt (L.env p) n.clock (f ++ pad.1) = .ok s →
      Step L n (.deliver p f pad) ((n.set p s).carry p ((n.inflight p).erase f))
  | drop (p : Side) {f : Bytes} : f ∈ n.inflight p →
      Step L n (.drop p f) (n.carry p ((n.inflight p).erase f))
  | dup (p : Side) {f : Bytes} : f ∈ n.inflight p →
      Step L n (.dup p f) (n.carry p (f :: n.inflight p))
  | wait (now : UInt64) : Step L n (.wait now) { n with clock := now }

/-- A step by an event that meets the condition `C` in the state before it. -/
def StepIf {σ : Type} (L : Link σ) (C : Net σ → Event → Prop) (n n' : Net σ) : Prop :=
  ∃ e, C n e ∧ Step L n e n'

/-- A state of a run that starts with two fresh ends and whose events all meet `C`. -/
def ReachableIf {σ : Type} (L : Link σ) (C : Net σ → Event → Prop) (n : Net σ) : Prop :=
  ∃ n₀ : Net σ, n₀.Initial ∧ Relation.ReflTransGen (StepIf L C) n₀ n

/-- A state of any run that starts with two fresh ends. -/
def Reachable {σ : Type} (L : Link σ) (n : Net σ) : Prop := ReachableIf L (fun _ _ => True) n

section Rules

variable {σ : Type} {L : Link σ} {n n' : Net σ} {e : Event} {C : Net σ → Event → Prop}

/-- Runs start at fresh ends and grow by one step at a time. -/
lemma ReachableIf.initial (h : n.Initial) : ReachableIf L C n := ⟨n, h, .refl⟩

lemma ReachableIf.step (h : ReachableIf L C n) (hC : C n e) (hstep : Step L n e n') :
    ReachableIf L C n' := by
  obtain ⟨n₀, h₀, hrun⟩ := h
  exact ⟨n₀, h₀, hrun.tail ⟨e, hC, hstep⟩⟩

/-- What holds of fresh ends and is kept by the steps of a run holds in all its states. -/
lemma ReachableIf.rule {P : Net σ → Prop} (h : ReachableIf L C n) (h₀ : ∀ n, n.Initial → P n)
    (hstep : ∀ n e n', ReachableIf L C n → C n e → Step L n e n' → P n → P n') : P n := by
  obtain ⟨n₀, hn₀, hrun⟩ := h
  induction hrun with
  | refl => exact h₀ n₀ hn₀
  | tail hrun hs ih =>
      obtain ⟨e, hC, hs⟩ := hs
      exact hstep _ e _ ⟨n₀, hn₀, hrun⟩ hC hs ih

/-- A run under a condition is a run. -/
lemma ReachableIf.reachable (h : ReachableIf L C n) : Reachable L n :=
  h.rule (fun _ => .initial) fun _ _ _ _ _ hs ih => ReachableIf.step ih trivial hs

/-- The moves cover the actions of an end. -/
lemma Session.Stable.act {env : LinkEnv σ} {R T : UInt64 → Prop} {invalid : Prop}
    {P : Session σ → Prop} (h : Session.Stable env R T invalid P) {now : UInt64}
    {s s' : Session σ} {a : Action} (ha : Act env now s a s') (hs : P s) : P s' := by
  cases ha with
  | send m => exact h.send _ m hs
  | introduce => exact h.sendLIM hs
  | close => exact h.close hs
  | keepalive _ => exact h.sendKeepalive (h.idle _ _ (.jobs _ _) hs)
  | tick working ht => exact h.tick ht hs

/-- A step changes an end by an action, a delivery, or by what happens to its frames. -/
lemma Step.ends_cases (h : Step L n e n') (p : Side) :
    (∃ a, Act (L.env p) n.clock (n.ends p) a (n'.ends p)) ∨
    (∃ f, ∃ pad : Padding, f ∈ n.inflight p ∧
      (n.ends p).handleFrameDecrypt (L.env p) n.clock (f ++ pad.1) = .ok (n'.ends p)) ∨
    ∃ frames, frames ⊆ (n.ends p).outbound ∧
      n'.ends p = { n.ends p with outbound := frames } := by
  have hsame : ∀ n' : Net σ, n'.ends p = n.ends p → ∃ frames, frames ⊆ (n.ends p).outbound ∧
      n'.ends p = { n.ends p with outbound := frames } :=
    fun n' hn' => ⟨_, List.Subset.refl _, hn'⟩
  cases h with
  | @act q a s ha =>
      obtain rfl | rfl := p.eq_or_eq_other q
      · refine .inl ⟨a, ?_⟩
        rw [Net.set_ends_self]
        exact ha
      · exact .inr (.inr (hsame _ (by simp)))
  | @deliver q f pad s hf hs =>
      obtain rfl | rfl := p.eq_or_eq_other q
      · refine .inr (.inl ⟨f, pad, hf, ?_⟩)
        rw [Net.carry_ends_self, Net.set_ends_self]
        exact hs
      · refine .inr (.inr ⟨(n.ends p).outbound.erase f, List.erase_subset, ?_⟩)
        rw [Net.carry_other_ends, Net.set_other_ends, Net.inflight_other]
  | @drop q f hf =>
      obtain rfl | rfl := p.eq_or_eq_other q
      · exact .inr (.inr (hsame _ (by simp)))
      · refine .inr (.inr ⟨(n.ends p).outbound.erase f, List.erase_subset, ?_⟩)
        rw [Net.carry_other_ends, Net.inflight_other]
  | @dup q f hf =>
      obtain rfl | rfl := p.eq_or_eq_other q
      · exact .inr (.inr (hsame _ (by simp)))
      · rw [Net.inflight_other] at hf
        refine .inr (.inr ⟨f :: (n.ends p).outbound,
          List.cons_subset.mpr ⟨hf, List.Subset.refl _⟩, ?_⟩)
        rw [Net.carry_other_ends, Net.inflight_other]
  | wait now => exact .inr (.inr (hsame _ rfl))

/-- What the moves of an end and a loss of its frames keep is kept by every step. -/
lemma Step.rule {p : Side} {P : Session σ → Prop}
    (hP : Session.Stable (L.env p) (fun _ => True) (fun _ => True) True P)
    (hout : ∀ s frames, frames ⊆ s.outbound → P s → P { s with outbound := frames })
    (h : Step L n e n') (hn : P (n.ends p)) : P (n'.ends p) := by
  obtain ⟨a, ha⟩ | ⟨f, pad, -, hd⟩ | ⟨frames, hsub, he⟩ := h.ends_cases p
  · exact hP.act ha hn
  · exact hP.handleFrameDecrypt (fun _ => trivial) (fun _ => trivial) (fun _ => trivial)
      (fun _ => trivial) hd hn
  · rw [he]
    exact hout _ _ hsub hn

end Rules

/-! ### Frames in flight -/

/-- The frame is an `XMIT` frame for `id`. -/
def IsXmitFor (id : UInt64) (buf : Bytes) : Prop :=
  MsgType.ofByte (hdrMsgtype buf) = some .eXMIT ∧ (Xmit.ofFrame buf).msgid = id

/-- How often `HandleRecvLinkMessage` was called for `id`. -/
def timesHanded {σ : Type} (id : UInt64) (s : Session σ) : ℕ :=
  (s.handed.map Prod.fst).count id

/-- The frame is one that an end writes which has queued the messages `Q`. -/
inductive Written (hash : Bytes → Blob 32) (Q : List (UInt64 × LinkMessage)) : Bytes → Prop
  | xmit {id : UInt64} {m : LinkMessage} (flags : UInt8) : (id, m) ∈ Q →
      Written hash Q (xmitFrame (hash m.1) id m.1 flags)
  | frag {id : UInt64} {m : LinkMessage} {i : ℕ} (flags : UInt8) : (id, m) ∈ Q →
      i < numfragsOf m.1 → Written hash Q (fragFrameOf id m.1 i flags)
  | acks (id : UInt64) (mask : BitVec 32) (flags : UInt8) :
      Written hash Q (ackFrame id mask flags)
  | aliv (flags : UInt8) : Written hash Q (alivFrame flags)

lemma Written.mono {hash : Bytes → Blob 32} {Q Q' : List (UInt64 × LinkMessage)} {f : Bytes}
    (h : Written hash Q f) (hQ : Q ⊆ Q') : Written hash Q' f := by
  cases h with
  | xmit flags hm => exact .xmit flags (hQ hm)
  | frag flags hm hi => exact .frag flags (hQ hm) hi
  | acks id mask flags => exact .acks id mask flags
  | aliv flags => exact .aliv flags

/-- The session has written only frames for messages it queued, and its `tx` holds such messages
cut up. -/
structure Honest {σ : Type} (hash : Bytes → Blob 32) (s : Session σ) : Prop where
  written : ∀ f ∈ s.outbound ++ s.frame.sendqueue, Written hash s.queued f
  cut : ∀ id t, s.frame.tx.lookup id = some t →
    ∃ m : LinkMessage, (id, m) ∈ s.queued ∧ IsCut (hash m.1) id m.1 t

namespace Honest

variable {σ : Type} {hash : Bytes → Blob 32} {s s' : Session σ}

/-- A change that queues no message and leaves `tx` alone needs only the new frames. -/
lemma of_frames (h : Honest hash s) (hq : s'.queued = s.queued) (htx : s'.frame.tx = s.frame.tx)
    (hf : ∀ f ∈ s'.outbound ++ s'.frame.sendqueue,
      f ∈ s.outbound ++ s.frame.sendqueue ∨ Written hash s.queued f) : Honest hash s' := by
  refine ⟨fun f hmem => ?_, ?_⟩
  · rw [hq]
    obtain h1 | h1 := hf f hmem
    · exact h.written f h1
    · exact h1
  · rw [hq, htx]
    exact h.cut

lemma sendto {env : LinkEnv σ} (henv : env.shorthash = hash) (h : Honest hash s)
    (m : LinkMessage) : Honest hash (s.sendto env m) := by
  have hcut := (putMessage_isCut (hash m.1) s.frame.txids m.2).1
  have hsub : s.queued ⊆ s.queued ++ [(s.frame.txids, m)] := List.subset_append_left _ _
  have hnew : (s.frame.txids, m) ∈ s.queued ++ [(s.frame.txids, m)] := by simp
  refine ⟨fun f hf => ?_, fun id t ht => ?_⟩
  · simp only [Session.sendto, Session.addOutboundMessage, Session.pump, FrameState.queueTx,
      List.append_nil, henv, hcut.generateXmit, ← List.append_assoc] at hf ⊢
    obtain hf | hf := List.mem_append.mp hf
    · exact (h.written f hf).mono hsub
    · rw [List.mem_singleton] at hf
      rw [hf]
      exact .xmit _ hnew
  · simp only [Session.sendto, Session.addOutboundMessage, Session.pump, FrameState.queueTx,
      henv] at ht ⊢
    split_ifs at ht with hin
    · obtain ⟨m', hm', hc⟩ := h.cut id t ht
      exact ⟨m', hsub hm', hc⟩
    · by_cases hid : id = s.frame.txids
      · subst hid
        rw [AList.lookup_insert] at ht
        obtain rfl := Option.some.inj ht
        exact ⟨m, hnew, hcut⟩
      · rw [AList.lookup_insert_ne hid] at ht
        obtain ⟨m', hm', hc⟩ := h.cut id t ht
        exact ⟨m', hsub hm', hc⟩

/-- Every move of an end keeps it honest. -/
lemma stable {env : LinkEnv σ} (henv : env.shorthash = hash) :
    Session.Stable env (fun _ => True) (fun _ => True) True (Honest (σ := σ) hash) where
  send s m h := h.sendto henv m
  idle s s' hi h := h.of_frames hi.queued hi.tx fun f hf => .inl (by rwa [hi.frames] at hf)
  rxflag s _ h := h.of_frames rfl rfl fun f hf => .inl hf
  txflag s h := h.of_frames rfl rfl fun f hf => .inl hf
  aliv s h := h.of_frames rfl rfl fun f hf => by
    simp only [Session.keeping, List.mem_append, List.mem_singleton] at hf ⊢
    obtain (hf | rfl) | hf := hf
    · exact .inl (.inl hf)
    · exact .inr (.aliv _)
    · exact .inl (.inr hf)
  store s id t _ h := h.of_frames rfl rfl fun f hf => .inl hf
  ackfor s id mask _ h := h.of_frames rfl rfl fun f hf => by
    obtain hf | rfl := s.mem_acking id hf
    · exact .inl hf
    · exact .inr (.acks _ _ _)
  hand s id m _ h := h.of_frames rfl rfl fun f hf => .inl hf
  forget s id _ h := h.of_frames rfl rfl fun f hf => .inl hf
  retire s id _ h := by
    refine ⟨h.written, fun id' t ht => h.cut id' t ?_⟩
    have hne : id' ≠ id := by
      rintro rfl
      simp [Session.retired] at ht
    rwa [Session.retired, AList.lookup_erase_ne hne] at ht
  acked s id t mask _ hl h := by
    refine ⟨h.written, fun id' t' ht' => ?_⟩
    simp only [Session.noting] at ht'
    by_cases hid : id' = id
    · subst hid
      rw [AList.lookup_insert] at ht'
      obtain rfl := Option.some.inj ht'
      obtain ⟨m, hm, hc⟩ := h.cut id' t hl
      exact ⟨m, hm, hc.ack mask⟩
    · rw [AList.lookup_insert_ne hid] at ht'
      exact h.cut id' t' ht'
  resend s id t frames hl hf h := h.of_frames rfl rfl fun f hmem => by
    obtain ⟨m, hm, hc⟩ := h.cut id t hl
    obtain ⟨frames', hf', hspec⟩ := hc.retransmitFrags m.2 s.frame.txflags
    obtain rfl : frames = frames' := Except.ok.inj (hf.symm.trans hf')
    simp only [Session.queueing, ← List.append_assoc] at hmem
    obtain hmem | hmem := List.mem_append.mp hmem
    · exact .inl hmem
    · obtain ⟨i, hi, -, rfl⟩ := (hspec f).mp hmem
      exact .inr (.frag _ hm hi)

end Honest

section Reach

variable {σ : Type} {L : Link σ} {n n' : Net σ} {e : Event} {C : Net σ → Event → Prop}

/-- Fresh ends are honest. -/
lemma Net.Initial.honest (h : n.Initial) (p : Side) : Honest L.shorthash (n.ends p) := by
  obtain ⟨-, htx, hsq, -, -, hout, -, -⟩ := h p
  refine ⟨fun f hf => ?_, fun id t ht => ?_⟩
  · simp [hsq, hout] at hf
  · simp [htx] at ht

lemma Step.honest (h : Step L n e n') {p : Side} (hn : Honest L.shorthash (n.ends p)) :
    Honest L.shorthash (n'.ends p) := by
  refine h.rule (Honest.stable (L.shorthash_eq p)) (fun s frames hsub hs => ?_) hn
  refine hs.of_frames rfl rfl fun f hf => .inl ?_
  simp only [List.mem_append] at hf ⊢
  exact hf.imp (fun hf => hsub hf) id

/-- Both ends are honest in every reachable state. -/
lemma honest_of_reachable (h : ReachableIf L C n) (p : Side) : Honest L.shorthash (n.ends p) :=
  h.rule (fun _ h₀ => h₀.honest p) fun _ _ _ _ _ hs hn => hs.honest hn

end Reach

/-! ### One short message -/

section Short

/-- An empty `DiscardMessage`, as it is encoded. -/
def shortMessage : LinkMessage :=
  ⟨[100, 49, 58, 97, 49, 58, 122, 49, 58, 118, 105, 48, 101, 49, 58, 122, 48, 58, 101],
    by decide⟩

/-- The digest `crypto_generichash` gives of `shortMessage`. -/
def shortHash : Blob 32 :=
  ⟨[0x51, 0x97, 0x99, 0x7b, 0x67, 0x46, 0x9c, 0x58, 0x73, 0xf9, 0x9e, 0xd3, 0xa7, 0xe7, 0x3c,
    0xc5, 0xa7, 0x36, 0x52, 0xd5, 0xf2, 0xd3, 0xe6, 0x0c, 0x5d, 0x56, 0x5a, 0xa5, 0x78, 0xff,
    0x40, 0x53], rfl⟩

/-- Two ends that exchange copies of `shortMessage`. -/
def shortLink : Link Unit where
  env _ := .discarding shortHash
  shorthash _ := shortHash
  shorthash_eq _ := rfl

/-- Two established ends that have exchanged nothing since their introductions. -/
def freshNet : Net Unit where
  ends _ := { frame := { txids := 1 }, state := .eEstablished, peer := () }
  clock := 0

lemma freshNet_initial : freshNet.Initial := fun _ => ⟨rfl, rfl, rfl, rfl, rfl, rfl, rfl, rfl⟩

/-- The `XMIT` frame of `shortMessage` carries all of it. -/
lemma numfragsOf_shortMessage : numfragsOf shortMessage.1 = 0 := by decide

/-- The initiator has sent `shortMessage`, under the id 1. -/
def sentNet : Net Unit :=
  freshNet.set .initiator
    ((freshNet.ends .initiator).sendto (shortLink.env .initiator) shortMessage)

/-- The frame on its way in `sentNet`. -/
def shortXmit : Bytes := xmitFrame shortHash 1 shortMessage.1 0

lemma sentNet_reachable : Reachable shortLink sentNet :=
  (ReachableIf.initial freshNet_initial).step trivial (.act .initiator (.send shortMessage))

lemma sentNet_inflight : sentNet.inflight .responder = [shortXmit] := by
  have hcut := (putMessage_isCut shortHash 1 shortMessage.2).1
  exact congrArg (fun f => [f]) (hcut.generateXmit 0)

/-- An end that does not know the id hands the message over and acks it. -/
lemma recv_shortXmit (s : Session Unit) (now : UInt64) (hid : 1 ∉ s.frame.rx) :
    ∃ s', s.handleFrameDecrypt (.discarding shortHash) now (shortXmit ++ []) = .ok s' ∧
      s'.handed = s.handed ++ [(1, shortMessage.1)] ∧ 1 ∉ s'.frame.rx ∧
      s'.frame.tx = s.frame.tx ∧
      s'.outbound = s.outbound ++ (s.frame.sendqueue ++ [ackFrame 1 0 s.frame.txflags]) := by
  have hproc := Session.process_xmitFrame (.discarding shortHash) now shortMessage.2 1 0
    ⟨[], by decide⟩ s
  simp only [if_neg hid, numfragsOf_shortMessage, if_true] at hproc
  refine ⟨_, Session.handleFrameDecrypt_of_true hproc rfl, rfl, ?_, rfl, rfl⟩
  exact fun h => (AList.mem_erase.mp h).1 rfl

end Short

end Udap.Iwp
