import Udap.Iwp.Loss

/-!
Closing a session.

`session::close` sets `eSessionInvalidated` in the flags an end sends, and the session is given up
"when the other side also marks as session invalidated".

* `AtRest`: an end that exchanges keepalives only. `Net.step_atRest` says what one event does to
  the flags and the frames of two such ends.
* `Deaf`: an end that will never read the flag. An end that reads the flag in a keepalive sets its
  own at once, and from then on `send_keepalive` sends nothing, so it leaves its peer deaf.
* `Unheard`: an end whose peer has timed out, and is not woken but by a frame with the flag.
* `closing_completes_iff`: both ends come to report `is_invalidated` if and only if the other end
  had closed as well and each of them was told or hears it.
-/

namespace Udap.Iwp

open ByteMem

/-! ### Ends at rest -/

section AtRest

variable {σ : Type} {env : LinkEnv σ} {now : UInt64} {s s' : Session σ}

/-- The end has read that its peer invalidated the session. -/
def Noted (s : Session σ) : Prop := s.frame.rxflags &&& eSessionInvalidated ≠ 0

/-- The bit is the only one that is looked at. -/
lemma and_eSessionInvalidated {x : UInt8} (h : x &&& eSessionInvalidated ≠ 0) :
    x &&& eSessionInvalidated = eSessionInvalidated := by
  have hmod : (x &&& eSessionInvalidated).toNat = x.toNat % 2 := by
    rw [UInt8.toNat_and]
    exact Nat.and_one_is_mod _
  rcases Nat.mod_two_eq_zero_or_one x.toNat with h0 | h1
  · exact absurd (UInt8.toNat_inj.mp (hmod.trans (h0.trans rfl))) h
  · exact UInt8.toNat_inj.mp (hmod.trans (h1.trans rfl))

/-- `is_invalidated` holds once the flag was read and set. -/
lemma isInvalidated_iff : s.isInvalidated = true ↔ Noted s ∧ Closing s := by
  refine ⟨fun h => ?_, fun ⟨hn, hc⟩ => ?_⟩
  · by_contra hno
    rw [not_and_or, Noted, Closing, not_not, not_not] at hno
    rw [not_isInvalidated hno] at h
    cases h
  · rw [Session.isInvalidated, FrameState.flagsAgree, and_eSessionInvalidated hn,
      and_eSessionInvalidated hc]
    rfl

/-- The end has no message under way, and the frames it has written are keepalives. -/
structure AtRest (s : Session σ) : Prop where
  sendqueue : s.frame.sendqueue = []
  tx : s.frame.tx = ∅
  outbound : ∀ f ∈ s.outbound, ∃ flags, f = alivFrame flags

/-- The flags of the end are those of `s`. -/
def SameFlags (s s' : Session σ) : Prop :=
  s'.frame.rxflags = s.frame.rxflags ∧ s'.frame.txflags = s.frame.txflags

/-- An empty queue is not pumped. -/
lemma Session.pump_of_nil (h : s.frame.sendqueue = []) : s.pump = s := by
  obtain ⟨⟨rxf, txf, ids, ev, rx, tx, q⟩, state, peer, jobs, out, handed, queued⟩ := s
  obtain rfl : q = [] := h
  rw [Session.pump, List.append_nil]

namespace AtRest

lemma keeping (h : AtRest s) : AtRest s.keeping :=
  ⟨h.sendqueue, h.tx, fun f hf => by
    obtain hf | hf := List.mem_append.mp hf
    · exact h.outbound f hf
    · exact ⟨_, List.mem_singleton.mp hf⟩⟩

/-- `send_keepalive` writes one frame, or none. -/
lemma sendKeepalive (h : AtRest s) :
    s.sendKeepalive = if s.isInvalidated then s else s.keeping := by
  rw [Session.sendKeepalive, Session.pump_of_nil h.keeping.sendqueue]

lemma sendKeepalive_atRest (h : AtRest s) : AtRest s.sendKeepalive := by
  rw [h.sendKeepalive]
  split_ifs
  · exact h
  · exact h.keeping

/-- There is nothing to retransmit. -/
lemma tickLive (h : AtRest s) : s.tickLive =
    .ok (if s.state = .eEstablished ∨ s.state = .eLIMSent then s.sendKeepalive else s) := by
  rw [Session.tickLive]
  generalize hs₀ :
    (if s.state = .eEstablished ∨ s.state = .eLIMSent then s.sendKeepalive else s) = s₀
  have h₀ : AtRest s₀ := by
    rw [← hs₀]
    split_ifs
    · exact h.sendKeepalive_atRest
    · exact h
  have hre : s₀.frame.retransmit = .ok s₀.frame := by
    obtain ⟨⟨rxf, txf, ids, ev, rx, tx, q⟩, state, peer, jobs, out, handed, queued⟩ := s₀
    obtain rfl : tx = ∅ := h₀.tx
    obtain rfl : q = [] := h₀.sendqueue
    rfl
  simp only [hre, bind, Except.bind, pure, Except.pure]
  split_ifs
  · exact congrArg Except.ok (Session.pump_of_nil h₀.sendqueue)
  · rfl

/-- `Tick` writes one keepalive, or changes nothing. -/
lemma tick (h : AtRest s) {working : Bool} (ht : s.tick now working = .ok (s', false)) :
    s' = s ∨ s.isInvalidated = false ∧ s' = s.keeping := by
  rw [Session.tick] at ht
  split_ifs at ht with hout hinv
  · exact .inl (Prod.mk.inj (Except.ok.inj ht)).1.symm
  · exact .inl (Prod.mk.inj (Except.ok.inj ht)).1.symm
  · rw [h.tickLive, h.sendKeepalive, if_neg hinv] at ht
    have hs' := (Prod.mk.inj (Except.ok.inj ht)).1
    split_ifs at hs'
    · exact .inr ⟨by simpa using hinv, hs'.symm⟩
    · exact .inl hs'.symm

lemma tick_frame (h : AtRest s) {working : Bool} (ht : s.tick now working = .ok (s', false)) :
    s'.frame = s.frame ∧
      ∀ f ∈ s'.outbound, f ∈ s.outbound ∨ f = alivFrame s.frame.txflags := by
  obtain rfl | ⟨-, rfl⟩ := h.tick ht
  · exact ⟨rfl, fun f hf => .inl hf⟩
  · exact ⟨rfl, fun f hf => (List.mem_append.mp hf).imp_right List.mem_singleton.mp⟩

/-- `Tick` on an open session writes a keepalive. -/
lemma tick_open (h : AtRest s) (hopen : Open now s) (hinv : s.isInvalidated = false) :
    s.tick now false = .ok (s.keeping, false) := by
  rw [Session.tick, hopen.2, hinv, h.tickLive, if_pos (Or.inl hopen.1), h.sendKeepalive, hinv]
  rfl

/-- A keepalive moves flags only, and restarts the time-out. An end that learns from it, or knew
before, that its peer invalidated the session does so too. -/
lemma deliver (h : AtRest s) {flags : UInt8} {pad : Padding}
    (hs : s.handleFrameDecrypt env now (alivFrame flags ++ pad.1) = .ok s') :
    AtRest s' ∧ s'.outbound = s.outbound ∧ (s.state = .eEstablished → Open now s') ∧
      (SameFlags s s' ∨
        (Noted s ∨ Flagged (alivFrame flags)) ∧ s'.isInvalidated = true) ∧
      (Flagged (alivFrame flags) → s'.isInvalidated = true) := by
  rw [Session.handleFrameDecrypt_of_true (Session.process_alivFrame env now flags pad.1 s _) rfl]
    at hs
  have hhdr : hdrFlags (alivFrame flags ++ pad.1) = hdrFlags (alivFrame flags) := rfl
  generalize hs₁ : (s.noteFlags (alivFrame flags ++ pad.1)).gotAliv = s₁ at hs
  have hbits : AtRest s₁ ∧ s₁.outbound = s.outbound ∧ s₁.state = s.state ∧
      (SameFlags s s₁ ∧ ¬ Flagged (alivFrame flags) ∨
        (Noted s ∨ Flagged (alivFrame flags)) ∧ Noted s₁ ∧ Closing s₁) := by
    rw [Session.gotAliv, Session.noteFlags, hhdr] at hs₁
    split_ifs at hs₁ with hfl hrx hrx
    · rw [← hs₁]
      exact ⟨h, rfl, rfl, .inl ⟨⟨rfl, rfl⟩, fun hf => hf hfl⟩⟩
    · rw [← hs₁]
      exact ⟨⟨h.sendqueue, h.tx, h.outbound⟩, rfl, rfl,
        .inr ⟨.inl hrx, hrx, or_eSessionInvalidated _⟩⟩
    · exact absurd hrx (or_eSessionInvalidated _)
    · rw [← hs₁]
      exact ⟨⟨h.sendqueue, h.tx, h.outbound⟩, rfl, rfl,
        .inr ⟨.inr hfl, or_eSessionInvalidated _, or_eSessionInvalidated _⟩⟩
  obtain ⟨hrest, hout, hstate, hflags⟩ := hbits
  have hpump : ({ s₁ with frame := s₁.frame.alive now } : Session σ).pump =
      { s₁ with frame := s₁.frame.alive now } := Session.pump_of_nil hrest.sendqueue
  obtain rfl : { s₁ with frame := s₁.frame.alive now } = s' :=
    hpump.symm.trans (Except.ok.inj hs)
  refine ⟨⟨hrest.sendqueue, hrest.tx, hrest.outbound⟩, hout, fun hest => ?_, ?_, fun hf => ?_⟩
  · exact ⟨hstate.trans hest, timedout_alive s₁⟩
  · exact hflags.imp And.left fun hf => ⟨hf.1, isInvalidated_iff.mpr hf.2⟩
  · obtain ⟨-, hno⟩ | ⟨-, hboth⟩ := hflags
    · exact absurd hf hno
    · exact isInvalidated_iff.mpr hboth

end AtRest

end AtRest

/-! ### The exchange of keepalives -/

section Exchange

variable {σ : Type} {L : Link σ} {n n' : Net σ} {e : Event} {p q : Side}

/-- An event that no router asks for: a tick, the job `close` has queued, a delivery, or what the
network and the time do. -/
def Unprompted {σ : Type} (_ : Net σ) : Event → Prop
  | .act _ .keepalive => True
  | .act _ (.tick _) => True
  | .act _ _ => False
  | _ => True

lemma Calm.unprompted (h : Calm n e) : Unprompted n e := by
  cases e with
  | act p a =>
      cases a with
      | tick working => trivial
      | _ => cases h
  | _ => trivial

/-- Nothing that ticks and deliveries do is prompted. -/
lemma unprompted_of_calm (hrun : Relation.ReflTransGen (StepIf L Calm) n n') :
    Relation.ReflTransGen (StepIf L Unprompted) n n' :=
  Relation.ReflTransGen.mono (fun _ _ ⟨e, he, hstep⟩ => ⟨e, he.unprompted, hstep⟩) _ _ hrun

/-- The end has read the flag, or a frame that carries it is on its way. -/
def Told (n : Net σ) (p : Side) : Prop :=
  Noted (n.ends p) ∨ ∃ f ∈ n.inflight p, Flagged f

lemma Told.mono (hn : Noted (n.ends p) → Noted (n'.ends p)) (hsub : n.inflight p ⊆ n'.inflight p)
    (h : Told n p) : Told n' p :=
  h.imp hn fun ⟨f, hf, hfl⟩ => ⟨f, hsub hf, hfl⟩

/-- Two established ends that exchange keepalives only. -/
def Resting (n : Net σ) : Prop := ∀ p, (n.ends p).state = .eEstablished ∧ AtRest (n.ends p)

/-- What becomes of an end at rest in one event: its new frame is a keepalive with its flags, and
its flags change only if it was told, which invalidates it. -/
structure Evolved (n : Net σ) (p : Side) (s : Session σ) : Prop where
  rest : AtRest s
  outbound : ∀ f ∈ s.outbound, f ∈ (n.ends p).outbound ∨
    (n.ends p).isInvalidated = false ∧ f = alivFrame (n.ends p).frame.txflags
  flags : SameFlags (n.ends p) s ∨ Told n p ∧ s.isInvalidated = true

namespace Evolved

/-- The network loses or copies frames of the end. -/
lemma carried (h : AtRest (n.ends p)) {frames : List Bytes}
    (hsub : frames ⊆ (n.ends p).outbound) :
    Evolved n p { n.ends p with outbound := frames } where
  rest := ⟨h.sendqueue, h.tx, fun f hf => h.outbound f (hsub hf)⟩
  outbound _ hf := .inl (hsub hf)
  flags := .inl ⟨rfl, rfl⟩

/-- The end writes a keepalive, or nothing. -/
lemma kept {s s' : Session σ} (h : AtRest s) (hframe : s.frame = (n.ends p).frame)
    (hout : s.outbound = (n.ends p).outbound)
    (hs' : s' = s ∨ s.isInvalidated = false ∧ s' = s.keeping) : Evolved n p s' := by
  obtain rfl | ⟨hinv, rfl⟩ := hs'
  · refine ⟨h, fun f hf => .inl (hout ▸ hf), .inl ?_⟩
    rw [SameFlags, hframe]
    exact ⟨rfl, rfl⟩
  · refine ⟨h.keeping, fun f hf => ?_, .inl ?_⟩
    · rw [Session.isInvalidated, hframe] at hinv
      rw [Session.keeping, hframe, hout] at hf
      exact (List.mem_append.mp hf).imp_right fun hf => ⟨hinv, List.mem_singleton.mp hf⟩
    · rw [SameFlags, Session.keeping, hframe]
      exact ⟨rfl, rfl⟩

/-- A keepalive arrives. -/
lemma delivered (h : ∀ p, AtRest (n.ends p)) {f : Bytes} {pad : Padding} (hf : f ∈ n.inflight p)
    {s : Session σ} (hs : (n.ends p).handleFrameDecrypt (L.env p) n.clock (f ++ pad.1) = .ok s) :
    Evolved n p s := by
  obtain ⟨flags, rfl⟩ := (h p.other).outbound f hf
  obtain ⟨hrest, hout, -, hflags, -⟩ := (h p).deliver hs
  refine ⟨hrest, fun f' hf' => .inl (hout ▸ hf'), hflags.imp_right fun hfl => ⟨?_, hfl.2⟩⟩
  exact hfl.1.imp_right fun hfl => ⟨_, hf, hfl⟩

end Evolved

/-- What one event does to two ends at rest. -/
lemma Step.evolved (hstep : Step L n e n') (he : Unprompted n e) (h : ∀ p, AtRest (n.ends p))
    (p : Side) : Evolved n p (n'.ends p) := by
  have hsame : Evolved n p (n.ends p) := .carried (h p) (List.Subset.refl _)
  cases hstep with
  | act q ha =>
      obtain rfl | rfl := p.eq_or_eq_other q
      · rw [Net.set_ends_self]
        have hq := h q
        cases ha with
        | keepalive hjobs =>
            have hrest : AtRest { n.ends q with keepaliveJobs := (n.ends q).keepaliveJobs - 1 } :=
              ⟨hq.sendqueue, hq.tx, hq.outbound⟩
            refine .kept hrest rfl rfl ?_
            rw [hrest.sendKeepalive]
            split_ifs with hinv
            · exact .inl rfl
            · exact .inr ⟨by simpa using hinv, rfl⟩
        | tick working ht => exact .kept hq rfl rfl (hq.tick ht)
        | _ => cases he
      · rwa [Net.set_other_ends]
  | deliver q pad hf hs =>
      obtain rfl | rfl := p.eq_or_eq_other q
      · rw [Net.carry_ends_self, Net.set_ends_self]
        exact .delivered h hf hs
      · rw [Net.carry_other_ends, Net.set_other_ends, Net.inflight_other]
        exact .carried (h p) List.erase_subset
  | drop q hf =>
      obtain rfl | rfl := p.eq_or_eq_other q
      · rwa [Net.carry_ends_self]
      · rw [Net.carry_other_ends, Net.inflight_other]
        exact .carried (h p) List.erase_subset
  | dup q hf =>
      obtain rfl | rfl := p.eq_or_eq_other q
      · rwa [Net.carry_ends_self]
      · rw [Net.inflight_other] at hf
        rw [Net.carry_other_ends, Net.inflight_other]
        exact .carried (h p) (List.cons_subset.mpr ⟨hf, List.Subset.refl _⟩)
  | wait now => exact hsame

/-! ### Deaf ends -/

/-- The end has not read the flag and will not: no frame with the flag is on its way, and its peer
sets none or sends no keepalive any more. -/
structure Deaf (q : Side) (n : Net σ) : Prop where
  rest : ∀ p, AtRest (n.ends p)
  told : ¬ Told n q
  peer : ¬ Closing (n.ends q.other) ∨ (n.ends q.other).isInvalidated = true

namespace Deaf

/-- A deaf end stays so, whatever happens unprompted. -/
lemma step (h : Deaf q n) (hstep : StepIf L Unprompted n n') : Deaf q n' := by
  obtain ⟨e, he, hstep⟩ := hstep
  have hev := hstep.evolved he h.rest
  refine ⟨fun p => (hev p).rest, ?_, ?_⟩
  · rintro (hn | ⟨f, hf, hfl⟩)
    · obtain ⟨hrx, -⟩ | ⟨htold, -⟩ := (hev q).flags
      · rw [Noted, hrx] at hn
        exact h.told (.inl hn)
      · exact h.told htold
    · obtain hold | ⟨hinv, rfl⟩ := (hev q.other).outbound f hf
      · exact h.told (.inr ⟨f, hold, hfl⟩)
      · -- a new keepalive carries the flags of a peer that is not invalidated
        obtain hopen | hpeer := h.peer
        · exact hopen hfl
        · rw [hinv] at hpeer
          cases hpeer
  · obtain ⟨hrx, htx⟩ | ⟨-, hinv⟩ := (hev q.other).flags
    · rw [Closing, Session.isInvalidated, FrameState.flagsAgree, hrx, htx]
      exact h.peer
    · exact .inr hinv

/-- A deaf end is never invalidated. -/
lemma run (h : Deaf q n) (hrun : Relation.ReflTransGen (StepIf L Unprompted) n n') :
    (n'.ends q).isInvalidated = false := by
  have hdeaf : Deaf q n' := by
    induction hrun with
    | refl => exact h
    | tail _ hstep ih => exact ih.step hstep
  exact not_isInvalidated (.inl (not_not.mp fun hn => hdeaf.told (.inl hn)))

end Deaf

/-! ### Ends that sleep -/

/-- The end can still write a frame: it has not timed out, or a keepalive without the flag is on its
way to it, which restarts its time-out. -/
def Awake (n : Net σ) (p : Side) : Prop :=
  (n.ends p).timedout n.clock = false ∨ ∃ f ∈ n.inflight p, ¬ Flagged f

lemma Awake.mono
    (ht : (n.ends p).timedout n.clock = false → (n'.ends p).timedout n'.clock = false)
    (hsub : n.inflight p ⊆ n'.inflight p) (h : Awake n p) : Awake n' p :=
  h.imp ht fun ⟨f, hf, hfl⟩ => ⟨f, hsub hf, hfl⟩

/-- The end was told, or its peer can tell it: it has not read the flag itself, and is awake. -/
def Hears (n : Net σ) (p : Side) : Prop :=
  Told n p ∨ ¬ Noted (n.ends p.other) ∧ Awake n p.other

lemma Hears.mono (htold : Told n p → Told n' p)
    (hn : Noted (n'.ends p.other) → Noted (n.ends p.other))
    (hawake : Awake n p.other → Awake n' p.other) (h : Hears n p) : Hears n' p :=
  h.imp htold (And.imp (mt hn) hawake)

/-- A closed end that was not told, and will not be while its peer sleeps. -/
structure Unheard (q : Side) (n : Net σ) : Prop where
  rest : ∀ p, AtRest (n.ends p)
  told : ¬ Told n q
  closing : Closing (n.ends q)
  asleep : ¬ Awake n q.other

namespace Unheard

/-- A tick of the closed end writes a keepalive with the flag, if any. -/
lemma tick (h : Unheard q n) {working : Bool} {s : Session σ}
    (ht : (n.ends q).tick n.clock working = .ok (s, false))
    (hrest : ∀ p, AtRest ((n.set q s).ends p)) : Unheard q (n.set q s) := by
  obtain ⟨hframe, hout⟩ := (h.rest q).tick_frame ht
  refine ⟨hrest, fun htold => h.told (htold.mono (fun hn => ?_) fun f hf => ?_), ?_, ?_⟩
  · rwa [Net.set_ends_self, Noted, hframe] at hn
  · rwa [Net.inflight, Net.set_ends_other] at hf
  · rw [Net.set_ends_self, Closing, hframe]
    exact h.closing
  · rintro (ht | ⟨f, hf, hfl⟩)
    · rw [Net.set_ends_other] at ht
      exact h.asleep (.inl ht)
    · rw [Net.inflight_other, Net.set_ends_self] at hf
      refine h.asleep (.inr ⟨f, ?_, hfl⟩)
      rw [Net.inflight_other]
      refine (hout f hf).resolve_right ?_
      rintro rfl
      exact hfl h.closing

/-- A tick of the end that sleeps does nothing. -/
lemma tick_peer (h : Unheard q n) {working : Bool} {s : Session σ}
    (ht : (n.ends q.other).tick n.clock working = .ok (s, false)) :
    Unheard q (n.set q.other s) := by
  have hasleep : (n.ends q.other).timedout n.clock = true :=
    Bool.eq_true_of_not_eq_false fun hopen => h.asleep (.inl hopen)
  rw [Session.tick, if_pos hasleep] at ht
  obtain rfl := (Prod.mk.inj (Except.ok.inj ht)).1
  rw [Net.set, Function.update_eq_self]
  exact h

/-- What the closed end reads is a keepalive without the flag. -/
lemma deliver (h : Unheard q n) {f : Bytes} {pad : Padding} (hf : f ∈ n.inflight q)
    {s : Session σ} (hs : (n.ends q).handleFrameDecrypt (L.env q) n.clock (f ++ pad.1) = .ok s)
    (hrest : ∀ p, AtRest (((n.set q s).carry q ((n.inflight q).erase f)).ends p)) :
    Unheard q ((n.set q s).carry q ((n.inflight q).erase f)) := by
  obtain ⟨flags, rfl⟩ := (h.rest q.other).outbound f hf
  obtain ⟨-, hout, -, hflags, -⟩ := (h.rest q).deliver hs
  obtain ⟨hrx, htx⟩ := hflags.resolve_right fun hbad =>
    h.told (hbad.1.imp_right fun hfl => ⟨_, hf, hfl⟩)
  refine ⟨hrest, fun htold => h.told (htold.mono (fun hn => ?_) fun f' hf' => ?_), ?_,
    fun hawake => h.asleep (hawake.mono (fun ht => ?_) fun f' hf' => ?_)⟩
  · rwa [Net.carry_ends_self, Net.set_ends_self, Noted, hrx] at hn
  · rw [Net.inflight, Net.carry_ends_other] at hf'
    exact List.erase_subset hf'
  · rw [Net.carry_ends_self, Net.set_ends_self, Closing, htx]
    exact h.closing
  · rwa [Net.carry_ends_other, Net.set_ends_other] at ht
  · rwa [Net.inflight_other, Net.carry_ends_self, Net.set_ends_self, hout,
      ← Net.inflight_other] at hf'

/-- What wakes the end that sleeps carries the flag, and invalidates it. -/
lemma deliver_peer (h : Unheard q n) {f : Bytes} {pad : Padding} (hf : f ∈ n.inflight q.other)
    {s : Session σ}
    (hs : (n.ends q.other).handleFrameDecrypt (L.env q.other) n.clock (f ++ pad.1) = .ok s)
    (hrest : ∀ p, AtRest (((n.set q.other s).carry q.other
      ((n.inflight q.other).erase f)).ends p)) :
    Deaf q ((n.set q.other s).carry q.other ((n.inflight q.other).erase f)) := by
  have hfl : Flagged f := not_not.mp fun hfl => h.asleep (.inr ⟨f, hf, hfl⟩)
  obtain ⟨flags, rfl⟩ := (h.rest q).outbound f (n.inflight_other q ▸ hf)
  obtain ⟨-, hout, -, -, hinv⟩ := (h.rest q.other).deliver hs
  refine ⟨hrest, fun htold => h.told (htold.mono (fun hn => ?_) fun f' hf' => ?_), .inr ?_⟩
  · rwa [Net.carry_other_ends, Net.set_other_ends] at hn
  · rwa [Net.inflight, Net.carry_ends_self, Net.set_ends_self, hout] at hf'
  · rw [Net.carry_ends_self, Net.set_ends_self]
    exact hinv hfl

lemma step (h : Unheard q n) (hstep : StepIf L Calm n n') : Deaf q n' ∨ Unheard q n' := by
  obtain ⟨e, he, hstep⟩ := hstep
  have hrest := fun p => (hstep.evolved he.unprompted h.rest p).rest
  cases hstep with
  | act r ha =>
      cases ha with
      | tick working ht =>
          obtain rfl | rfl := q.eq_or_eq_other r
          · exact .inr (h.tick ht hrest)
          · exact .inr (h.tick_peer ht)
      | _ => cases he
  | deliver r pad hf hs =>
      obtain rfl | rfl := q.eq_or_eq_other r
      · exact .inr (h.deliver hf hs hrest)
      · exact .inl (h.deliver_peer hf hs hrest)
  | _ => cases he

/-- So the end is never invalidated by ticks and deliveries. -/
lemma run (h : Unheard q n) (hrun : Relation.ReflTransGen (StepIf L Calm) n n') :
    (n'.ends q).isInvalidated = false := by
  have hstill : Deaf q n' ∨ Unheard q n' := by
    induction hrun with
    | refl => exact .inr h
    | tail _ hstep ih =>
        obtain hdeaf | hunheard := ih
        · obtain ⟨e, he, hstep⟩ := hstep
          exact .inl (hdeaf.step ⟨e, he.unprompted, hstep⟩)
        · exact hunheard.step hstep
  have htold : ¬ Told n' q := hstill.elim Deaf.told told
  exact not_isInvalidated (.inl (not_not.mp fun hn => htold (.inl hn)))

end Unheard

/-! ### Both ends invalidated -/

/-- Both ends report `is_invalidated`. -/
def Invalidated (n : Net σ) : Prop := ∀ p, (n.ends p).isInvalidated = true

/-- An established end at rest that has closed the session. -/
structure Ending {σ : Type} (s : Session σ) : Prop where
  established : s.state = .eEstablished
  rest : AtRest s
  closing : Closing s

/-- Both ends have closed the session. -/
def BothClosing (n : Net σ) : Prop := ∀ p, Ending (n.ends p)

namespace BothClosing

/-- An end acts. -/
lemma set (h : BothClosing n) {s : Session σ} (hs : Ending s) (q : Side) :
    BothClosing (n.set q s) := by
  intro p
  obtain rfl | rfl := q.eq_or_eq_other p
  · rwa [Net.set_ends_self]
  · rw [Net.set_ends_other]
    exact h q.other

/-- A keepalive arrives. -/
lemma arrive (L : Link σ) (h : BothClosing n) {f : Bytes} (hf : f ∈ n.inflight q) : ∃ s,
    StepIf L Calm n ((n.set q s).carry q ((n.inflight q).erase f)) ∧
      BothClosing ((n.set q s).carry q ((n.inflight q).erase f)) ∧
      s.outbound = (n.ends q).outbound ∧ s.timedout n.clock = false ∧
      (Flagged f → s.isInvalidated = true) ∧ (¬ Noted (n.ends q) → ¬ Flagged f → ¬ Noted s) := by
  obtain ⟨flags, rfl⟩ := (h q.other).rest.outbound f hf
  let pad : Padding := ⟨[], by decide⟩
  obtain ⟨s, hs⟩ : ∃ s, (n.ends q).handleFrameDecrypt (L.env q) n.clock
      (alivFrame flags ++ pad.1) = .ok s :=
    ⟨_, Session.handleFrameDecrypt_of_true (Session.process_alivFrame _ _ flags pad.1 _ _) rfl⟩
  obtain ⟨hrest, hout, hopen, hflags, hinv⟩ := (h q).rest.deliver hs
  have hopen := hopen (h q).established
  have hclosing : Closing s := by
    obtain ⟨-, htx⟩ | ⟨-, hboth⟩ := hflags
    · rw [Closing, htx]
      exact (h q).closing
    · exact (isInvalidated_iff.mp hboth).2
  have hset : BothClosing (n.set q s) := h.set ⟨hopen.1, hrest, hclosing⟩ q
  refine ⟨s, ⟨.deliver q _ pad, trivial, .deliver q pad hf hs⟩, hset.set ?_ q.other, hout, hopen.2,
    hinv, fun hno hfl => ?_⟩
  · have hother := hset q.other
    rw [Net.set_ends_other] at hother ⊢
    exact ⟨hother.established, ⟨hother.rest.sendqueue, hother.rest.tx, fun f hf =>
      hother.rest.outbound f (List.erase_subset hf)⟩, hother.closing⟩
  · obtain ⟨hrx, -⟩ | ⟨hbad, -⟩ := hflags
    · rwa [Noted, hrx]
    · exact absurd hbad (not_or.mpr ⟨hno, hfl⟩)

/-- An end that was told is invalidated by the delivery of the frame, and its peer still is what
it was. -/
lemma hear (h : BothClosing n) (htold : Told n q) :
    ∃ n', Relation.ReflTransGen (StepIf L Calm) n n' ∧ BothClosing n' ∧
      (n'.ends q).isInvalidated = true ∧ (Told n q.other → Told n' q.other) ∧
      ((n.ends q.other).isInvalidated = true → (n'.ends q.other).isInvalidated = true) := by
  obtain hn | ⟨f, hf, hfl⟩ := htold
  · exact ⟨n, .refl, h, isInvalidated_iff.mpr ⟨hn, (h q).closing⟩, id, id⟩
  · obtain ⟨s, hstep, hboth, hout, -, hinv, -⟩ := h.arrive L hf
    refine ⟨_, .single hstep, hboth, ?_, Told.mono (fun hn => ?_) fun f hf => ?_, fun hother => ?_⟩
    · rw [Net.carry_ends_self, Net.set_ends_self]
      exact hinv hfl
    · rwa [Net.carry_ends_other, Net.set_ends_other]
    · rwa [Net.inflight_other, Net.carry_ends_self, Net.set_ends_self, hout, ← Net.inflight_other]
    · rwa [Net.carry_ends_other, Net.set_ends_other]

/-- Two closed ends that were both told come to be invalidated by deliveries. -/
lemma of_told (h : BothClosing n) (htold : ∀ p, Told n p) :
    ∃ n', Relation.ReflTransGen (StepIf L Calm) n n' ∧ Invalidated n' := by
  obtain ⟨n₁, hrun₁, h₁, hinv₁, htold₁, -⟩ := h.hear (L := L) (htold .initiator)
  obtain ⟨n₂, hrun₂, -, hinv₂, -, hkept⟩ := h₁.hear (L := L) (htold₁ (htold _))
  refine ⟨n₂, hrun₁.trans hrun₂, fun p => ?_⟩
  cases p with
  | initiator => exact hkept hinv₁
  | responder => exact hinv₂

/-- An end that is awake and has not read the flag gets to where it has not timed out, and nobody
misses a frame with the flag or an awake peer. -/
lemma wake (h : BothClosing n) (hno : ¬ Noted (n.ends q)) (hawake : Awake n q) :
    ∃ n', Relation.ReflTransGen (StepIf L Calm) n n' ∧ BothClosing n' ∧ ¬ Noted (n'.ends q) ∧
      (n'.ends q).timedout n'.clock = false ∧ (Told n q → Told n' q) ∧
      (Hears n q → Hears n' q) := by
  obtain ht | ⟨f, hf, hfl⟩ := hawake
  · exact ⟨n, .refl, h, hno, ht, id, id⟩
  · obtain ⟨s, hstep, hboth, hout, ht, -, hstill⟩ := h.arrive L hf
    set n' := (n.set q s).carry q ((n.inflight q).erase f) with hn'
    have hself : n'.ends q = s := by rw [hn', Net.carry_ends_self, Net.set_ends_self]
    have htold : Told n q → Told n' q := by
      rintro (hnoted | ⟨f', hf', hfl'⟩)
      · exact absurd hnoted hno
      · refine .inr ⟨f', ?_, hfl'⟩
        have hne : f' ≠ f := fun heq => hfl (heq ▸ hfl')
        rw [hn', Net.inflight, Net.carry_ends_other]
        exact (List.mem_erase_of_ne hne).mpr hf'
    refine ⟨n', .single hstep, hboth, hself ▸ hstill hno hfl, hself ▸ ht, htold,
      Hears.mono htold (fun hn => ?_) (Awake.mono (fun ht => ?_) fun f hf => ?_)⟩
    · rwa [hn', Net.carry_ends_other, Net.set_ends_other] at hn
    · rwa [hn', Net.carry_ends_other, Net.set_ends_other]
    · rwa [Net.inflight_other, hself, hout, ← Net.inflight_other]

/-- An end that has not timed out and has not read the flag sends it with its next keepalive. -/
lemma speak (L : Link σ) (h : BothClosing n) (hno : ¬ Noted (n.ends q))
    (ht : (n.ends q).timedout n.clock = false) :
    StepIf L Calm n (n.set q (n.ends q).keeping) ∧ BothClosing (n.set q (n.ends q).keeping) ∧
      Told (n.set q (n.ends q).keeping) q.other ∧
      (Told n q → Told (n.set q (n.ends q).keeping) q) ∧
      (Hears n q → Hears (n.set q (n.ends q).keeping) q) := by
  have hinv := not_isInvalidated (.inl (not_not.mp hno))
  have htick := (h q).rest.tick_open ⟨(h q).established, ht⟩ hinv
  have htold : Told n q → Told (n.set q (n.ends q).keeping) q := by
    refine Told.mono (fun hn => ?_) fun f hf => ?_
    · rwa [Net.set_ends_self]
    · rwa [Net.inflight, Net.set_ends_other]
  refine ⟨⟨.act q (.tick false), trivial, .act q (.tick false htick)⟩, h.set ?_ q, .inr ?_, htold,
    Hears.mono htold (fun hn => ?_) (Awake.mono (fun ht => ?_) fun f hf => ?_)⟩
  · exact ⟨(h q).established, (h q).rest.keeping, (h q).closing⟩
  · refine ⟨alivFrame (n.ends q).frame.txflags, ?_, (h q).closing⟩
    rw [Net.inflight_other, Net.set_ends_self]
    exact List.mem_append_right _ (List.mem_singleton_self _)
  · rwa [Net.set_ends_other] at hn
  · rwa [Net.set_ends_other]
  · rw [Net.inflight_other] at hf ⊢
    rw [Net.set_ends_self]
    exact List.mem_append_left _ hf

/-- An end that hears is told. -/
lemma tell (h : BothClosing n) (hq : Hears n q) :
    ∃ n', Relation.ReflTransGen (StepIf L Calm) n n' ∧ BothClosing n' ∧ Told n' q ∧
      (Told n q.other → Told n' q.other) ∧ (Hears n q.other → Hears n' q.other) := by
  obtain htold | ⟨hno, hawake⟩ := hq
  · exact ⟨n, .refl, h, htold, id, id⟩
  · obtain ⟨n₁, hrun, h₁, hno₁, ht₁, htold₁, hhears₁⟩ := h.wake (L := L) hno hawake
    obtain ⟨hstep, h₂, htold, htold₂, hhears₂⟩ := h₁.speak L hno₁ ht₁
    rw [Side.other_other] at htold
    exact ⟨_, hrun.tail hstep, h₂, htold, htold₂ ∘ htold₁, hhears₂ ∘ hhears₁⟩

/-- Two closed ends that hear each other come to be invalidated. -/
lemma of_hears (h : BothClosing n) (hall : ∀ q, Hears n q) :
    ∃ n', Relation.ReflTransGen (StepIf L Calm) n n' ∧ Invalidated n' := by
  obtain ⟨n₁, hrun₁, h₁, htold₁, -, hhears₁⟩ := h.tell (L := L) (hall .initiator)
  obtain ⟨n₂, hrun₂, h₂, htold₂, hkept, -⟩ := h₁.tell (L := L) (hhears₁ (hall _))
  obtain ⟨n', hrun, hinv⟩ := h₂.of_told (L := L) fun p => by
    cases p with
    | initiator => exact hkept htold₁
    | responder => exact htold₂
  exact ⟨n', (hrun₁.trans hrun₂).trans hrun, hinv⟩

end BothClosing

/-- The end other than `p` has closed the session before `p` does, and each of them was told of it
or hears it from the other one. -/
def Mutual (p : Side) (n : Net σ) : Prop :=
  Closing (n.ends p.other) ∧ ∀ q, Hears n q

/-- The router of `p` closes the session: of what matters here only the flags that `p` sends
change. -/
lemma close_ends (n : Net σ) (p q : Side) :
    (Noted ((n.set p (n.ends p).close).ends q) ↔ Noted (n.ends q)) ∧
    ((n.set p (n.ends p).close).ends q).outbound = (n.ends q).outbound ∧
    (AtRest (n.ends q) → AtRest ((n.set p (n.ends p).close).ends q)) ∧
    ((n.set p (n.ends p).close).ends q).state = (n.ends q).state ∧
    ∀ now, ((n.set p (n.ends p).close).ends q).timedout now = (n.ends q).timedout now := by
  obtain rfl | rfl := p.eq_or_eq_other q
  · rw [Net.set_ends_self]
    exact ⟨Iff.rfl, rfl, fun h => ⟨h.sendqueue, h.tx, h.outbound⟩, rfl, fun _ => rfl⟩
  · rw [Net.set_ends_other]
    exact ⟨Iff.rfl, rfl, id, rfl, fun _ => rfl⟩

lemma close_told (n : Net σ) (p q : Side) :
    Told (n.set p (n.ends p).close) q ↔ Told n q := by
  rw [Told, Told, Net.inflight, Net.inflight, (close_ends n p q).1, (close_ends n p q.other).2.1]

lemma close_awake (n : Net σ) (p q : Side) :
    Awake (n.set p (n.ends p).close) q ↔ Awake n q := by
  rw [Awake, Awake, Net.inflight, Net.inflight, (close_ends n p q).2.2.2.2,
    (close_ends n p q.other).2.1, Net.set_clock]

/-- If the other end had closed before, both ends have now. -/
lemma close_closing (hc : Closing (n.ends p.other)) (q : Side) :
    Closing ((n.set p (n.ends p).close).ends q) := by
  obtain rfl | rfl := p.eq_or_eq_other q
  · rw [Net.set_ends_self]
    exact or_eSessionInvalidated _
  · rwa [Net.set_ends_other]

/-- Unless the closing was mutual, one end is deaf or unheard after it. -/
lemma deaf_or_unheard (hreach : Reachable L n) (hrest : ∀ p, AtRest (n.ends p))
    (hno : ¬ Mutual p n) :
    ∃ q, Deaf q (n.set p (n.ends p).close) ∨ Unheard q (n.set p (n.ends p).close) := by
  have hrest₁ := fun q => (close_ends n p q).2.2.1 (hrest q)
  by_cases hc : Closing (n.ends p.other)
  · -- one end does not hear: its peer has read the flag, or sleeps
    obtain ⟨q, hq⟩ := not_forall.mp fun hall => hno ⟨hc, hall⟩
    rw [Hears, not_or, not_and_or, not_not] at hq
    obtain ⟨hq, hr | hr⟩ := hq
    · exact ⟨q, .inl ⟨hrest₁, (close_told n p q).not.mpr hq,
        .inr (isInvalidated_iff.mpr ⟨(close_ends n p _).1.mpr hr, close_closing hc _⟩)⟩⟩
    · exact ⟨q, .inr ⟨hrest₁, (close_told n p q).not.mpr hq, close_closing hc q,
        (close_awake n p q.other).not.mpr hr⟩⟩
  · refine ⟨p, .inl ⟨hrest₁, (close_told n p p).not.mpr ?_, .inl ?_⟩⟩
    · rintro (hn | ⟨f, hf, hfl⟩)
      · have hnoted := notedIf_of_reachable hreach p.other
        rw [Side.other_other] at hnoted
        exact hc (hnoted hn)
      · exact hc (flagsSent_of_reachable hreach p.other f (List.mem_append_left _ hf) hfl)
    · rwa [Net.set_ends_other]

/-- After a mutual closing, ticks and deliveries invalidate both ends. -/
lemma Mutual.run (L : Link σ) (h : Mutual p n) (hrest : Resting n) :
    ∃ n', Relation.ReflTransGen (StepIf L Calm) (n.set p (n.ends p).close) n' ∧
      Invalidated n' := by
  have hboth : BothClosing (n.set p (n.ends p).close) := fun q =>
    ⟨(close_ends n p q).2.2.2.1.trans (hrest q).1, (close_ends n p q).2.2.1 (hrest q).2,
      close_closing h.1 q⟩
  refine hboth.of_hears fun q => ?_
  rw [Hears, close_told, close_awake, (close_ends n p q.other).1]
  exact h.2 q

lemma Invalidated.not_false (hinv : Invalidated n) (q : Side) :
    (n.ends q).isInvalidated ≠ false := by
  rw [hinv q]
  exact Bool.noConfusion

/-- If ticks and deliveries invalidate both ends, the closing was mutual. -/
lemma Invalidated.mutual (hinv : Invalidated n') (hreach : Reachable L n) (hrest : Resting n)
    (hrun : Relation.ReflTransGen (StepIf L Calm) (n.set p (n.ends p).close) n') :
    Mutual p n := by
  by_contra hno
  obtain ⟨q, hdeaf | hunheard⟩ := deaf_or_unheard hreach (fun q => (hrest q).2) hno
  · exact hinv.not_false q (hdeaf.run (unprompted_of_calm hrun))
  · exact hinv.not_false q (hunheard.run hrun)

/-- So it was if anything that is not prompted invalidates two ends that had not timed out. -/
lemma Invalidated.mutual_of_open (hinv : Invalidated n') (hreach : Reachable L n)
    (hrest : Resting n) (hopen : ∀ q, (n.ends q).timedout n.clock = false)
    (hrun : Relation.ReflTransGen (StepIf L Unprompted) (n.set p (n.ends p).close) n') :
    Mutual p n := by
  by_contra hno
  obtain ⟨q, hdeaf | hunheard⟩ := deaf_or_unheard hreach (fun q => (hrest q).2) hno
  · exact hinv.not_false q (hdeaf.run hrun)
  · exact hunheard.asleep ((close_awake n p q.other).mpr (.inl (hopen q.other)))

/-- **Closing completes only if it is mutual.** Of two established ends that exchange keepalives
only, one closes the session. There is a run of deliveries and ticks in which both come to report
`is_invalidated` if and only if the other end had closed it before and each of them was told or
hears it. If neither end has timed out, no event that no router asks for changes that. -/
theorem closing_completes_iff (L : Link σ) (p : Side) {n : Net σ} (hreach : Reachable L n)
    (hrest : Resting n) :
    ((∃ n', Relation.ReflTransGen (StepIf L Calm) (n.set p (n.ends p).close) n' ∧
      Invalidated n') ↔ Mutual p n) ∧
    ((∀ q, (n.ends q).timedout n.clock = false) →
      ((∃ n', Relation.ReflTransGen (StepIf L Unprompted) (n.set p (n.ends p).close) n' ∧
        Invalidated n') ↔ Mutual p n)) := by
  refine ⟨⟨fun ⟨n', hrun, hinv⟩ => hinv.mutual hreach hrest hrun, fun h => h.run L hrest⟩,
    fun hopen => ⟨fun ⟨n', hrun, hinv⟩ => hinv.mutual_of_open hreach hrest hopen hrun, fun h => ?_⟩⟩
  obtain ⟨n', hrun, hinv⟩ := h.run L hrest
  exact ⟨n', unprompted_of_calm hrun, hinv⟩

end Exchange

lemma freshNet_timedout (q : Side) : (freshNet.ends q).timedout freshNet.clock = false := by
  cases q <;> decide

lemma freshNet_resting : Resting freshNet :=
  fun _ => ⟨rfl, rfl, rfl, fun _ hf => absurd hf List.not_mem_nil⟩

/-- Two fresh ends, of which the responder has closed the session; then the initiator does. -/
theorem closing_completes_fresh :
    ∃ n', Relation.ReflTransGen (StepIf shortLink Calm)
      ((freshNet.set .responder (freshNet.ends .responder).close).set .initiator
        ((freshNet.set .responder (freshNet.ends .responder).close).ends .initiator).close) n' ∧
      Invalidated n' := by
  have hreach : Reachable shortLink (freshNet.set .responder (freshNet.ends .responder).close) :=
    (ReachableIf.initial freshNet_initial).step trivial (.act .responder .close)
  have hrest : Resting (freshNet.set .responder (freshNet.ends .responder).close) := fun q =>
    ⟨(close_ends freshNet .responder q).2.2.2.1.trans (freshNet_resting q).1,
      (close_ends freshNet .responder q).2.2.1 (freshNet_resting q).2⟩
  refine (closing_completes_iff shortLink .initiator hreach hrest).1.mpr
    ⟨or_eSessionInvalidated _, fun q => .inr ⟨fun hn => ?_, .inl ?_⟩⟩
  · have hfresh := (close_ends freshNet .responder _).1.mp hn
    cases q <;> exact hfresh rfl
  · exact ((close_ends freshNet .responder q.other).2.2.2.2 _).trans (freshNet_timedout _)

/-- Two fresh ends, of which one closes the session: no run of deliveries and ticks invalidates
both of them. -/
theorem not_closing_completes : ∃ n : Net Unit, Reachable shortLink n ∧ Resting n ∧
    (∀ q, (n.ends q).timedout n.clock = false) ∧
    ∀ n', Relation.ReflTransGen (StepIf shortLink Calm)
      (n.set .initiator (n.ends .initiator).close) n' → ¬ Invalidated n' := by
  have hreach : Reachable shortLink freshNet := .initial freshNet_initial
  refine ⟨freshNet, hreach, freshNet_resting, freshNet_timedout, fun n' hrun hinv => ?_⟩
  exact (hinv.mutual hreach freshNet_resting hrun).1 rfl

end Udap.Iwp
