import Udap.Iwp.Receive

/-!
Fragmenting and reassembling is the identity.

A receiver that processes the `XMIT` frame of a message once and then its `FRAG` frames in any
order and multiplicity hands the message to the router once, byte for byte, when the last
missing fragment number arrives (`fragment_reassemble`).

The state between two frames is `Progress`: as long as a fragment number is missing the message
is in `rx` with exactly the status bits that have arrived, afterwards it has been handed over
and is gone.
-/

namespace Udap.Iwp

open ByteMem TransitMessage

namespace Session

variable {σ : Type} (env : LinkEnv σ)

/-- A session receiving decrypted frames, each at its own time. -/
def recvAll (frames : List (UInt64 × Bytes)) (s : Session σ) : Except Fault (Session σ) :=
  frames.foldlM (fun s a => s.handleFrameDecrypt env a.1 a.2) s

lemma recvAll_cons {now : UInt64} {buf : Bytes} {frames : List (UInt64 × Bytes)}
    {s s' : Session σ} (h : s.handleFrameDecrypt env now buf = .ok s') :
    recvAll env ((now, buf) :: frames) s = recvAll env frames s' := by
  rw [recvAll, List.foldlM_cons, h]
  rfl

lemma recvAll_snoc {now : UInt64} {buf : Bytes} {frames : List (UInt64 × Bytes)}
    {s s₁ s' : Session σ} (h₁ : recvAll env frames s = .ok s₁)
    (h : s₁.handleFrameDecrypt env now buf = .ok s') :
    recvAll env (frames ++ [(now, buf)]) s = .ok s' := by
  rw [recvAll] at h₁ ⊢
  rw [List.foldlM_append, h₁]
  simp [bind, Except.bind, h, pure, Except.pure]

/-- The frame is one that `retransmit_frags` writes for `t`, with padding. -/
def IsFragOf (t : TransitMessage) (buf : Bytes) : Prop :=
  ∃ flags frames f, ∃ pad : Padding,
    t.retransmitFrags flags = .ok frames ∧ f ∈ frames ∧ buf = f ++ pad.1

/-- Every fragment number of `t` occurs among the frames. -/
def Covers (t : TransitMessage) (frames : List (UInt64 × Bytes)) : Prop :=
  ∀ i < t.msginfo.numfrags, i ∈ frames.map fun a => fragnoOf a.2

instance (t : TransitMessage) (frames : List (UInt64 × Bytes)) : Decidable (Covers t frames) :=
  inferInstanceAs (Decidable (∀ i < t.msginfo.numfrags, i ∈ frames.map fun a => fragnoOf a.2))

/-! ### The state between two frames -/

/-- The receiver `s` of message `m` under `id`, started from `s₀`, after the fragment numbers
`D` have arrived. -/
def Progress (s₀ : Session σ) (id : UInt64) (m : Bytes) (D : List ℕ) (s : Session σ) : Prop :=
  if ∀ i < numfragsOf m, i ∈ D then s.handed = s₀.handed ++ [(id, m)] ∧ id ∉ s.frame.rx
  else s.handed = s₀.handed ∧ ∃ t, s.frame.rx.lookup id = some t ∧
    IsPartial (env.shorthash m) id m t ∧ ∀ i < numfragsOf m, t.status.getLsbD i = true ↔ i ∈ D

variable {env} {s₀ s : Session σ} {id : UInt64} {m : Bytes}

/-- The `XMIT` frame starts the message. -/
lemma progress_xmit (hm : m.length ≤ 32768) (hid : id ∉ s.frame.rx) (now : UInt64)
    (flags : UInt8) (pad : Padding) :
    ∃ s', s.handleFrameDecrypt env now (xmitFrame (env.shorthash m) id m flags ++ pad.1) =
      .ok s' ∧ Progress env s id m [] s' := by
  have hproc := process_xmitFrame env now hm id flags pad s
  simp only [if_neg hid] at hproc
  by_cases h0 : numfragsOf m = 0
  · rw [if_pos h0] at hproc
    obtain ⟨s', hs', hrx, hh⟩ := handleFrameDecrypt_of env now hproc
    refine ⟨s', hs', ?_⟩
    rw [Progress, if_pos (by omega), hrx, hh, finished_rx, finished_handed]
    refine ⟨by simp, ?_⟩
    rw [AList.mem_erase]
    exact fun h => h.1 rfl
  · rw [if_neg h0] at hproc
    obtain ⟨s', hs', hrx, hh⟩ := handleFrameDecrypt_of env now hproc
    refine ⟨s', hs', ?_⟩
    have hnone : ¬ ∀ i < numfragsOf m, i ∈ ([] : List ℕ) := fun h => by
      simpa using h 0 (by omega)
    rw [Progress, if_neg hnone, hrx, hh]
    refine ⟨by simp, announced env id m, AList.lookup_insert _,
      inbound_isPartial _ id hm, fun i _ => ?_⟩
    have hst : (announced env id m).status = 0 := rfl
    simp [hst]

/-- A `FRAG` frame adds its number. -/
lemma progress_frag (hm : m.length ≤ 32768) {D : List ℕ} (hs : Progress env s₀ id m D s)
    {i : ℕ} (hi : i < numfragsOf m) (now : UInt64) (flags : UInt8) (pad : Padding) :
    ∃ s', s.handleFrameDecrypt env now (fragFrameOf id m i flags ++ pad.1) = .ok s' ∧
      Progress env s₀ id m (D ++ [i]) s' := by
  rw [Progress] at hs
  split_ifs at hs with hD
  · -- the message is complete already: the frame is ignored
    have hD' : ∀ j < numfragsOf m, j ∈ D ++ [i] := fun j hj => List.mem_append_left _ (hD j hj)
    obtain ⟨s', hs', hrx, hh⟩ :=
      handleFrameDecrypt_of env now (process_fragFrame_none env now hm id hi flags pad hs.2)
    refine ⟨s', hs', ?_⟩
    rw [Progress, if_pos hD', hrx, hh, noteFlags_rx, noteFlags_handed]
    exact hs
  · obtain ⟨hhanded, t, hl, ht, hbits⟩ := hs
    obtain ⟨t', ht', hst, hproc⟩ := process_fragFrame env now hm id hi flags pad hl ht
    have hbits' : ∀ j < numfragsOf m, t'.status.getLsbD j = true ↔ j ∈ D ++ [i] := by
      intro j hj
      have := numfragsOf_le hm
      rw [hst, BitVec.getLsbD_or, BitVec.getLsbD_twoPow, Bool.or_eq_true, hbits j hj,
        List.mem_append, List.mem_singleton]
      simp [show i < 32 by omega, eq_comm]
    have hfull : Full (numfragsOf m) t'.status ↔ ∀ j < numfragsOf m, j ∈ D ++ [i] :=
      ⟨fun h j hj => (hbits' j hj).mp (h j hj), fun h j hj => (hbits' j hj).mpr (h j hj)⟩
    by_cases hD' : ∀ j < numfragsOf m, j ∈ D ++ [i]
    · -- the last missing fragment
      rw [if_pos (hfull.mpr hD')] at hproc
      obtain ⟨s', hs', hrx, hh⟩ := handleFrameDecrypt_of env now hproc
      refine ⟨s', hs', ?_⟩
      rw [Progress, if_pos hD', hrx, hh, finished_rx, finished_handed]
      refine ⟨?_, fun hmem => (AList.mem_erase.mp hmem).1 rfl⟩
      rw [acking_handed, stored_handed, noteFlags_handed, hhanded]
    · rw [if_neg (mt hfull.mp hD')] at hproc
      have hstep : ∃ s' b, s.process env now (fragFrameOf id m i flags ++ pad.1)
          (fragFrameOf id m i flags ++ pad.1).length = .ok (s', b) ∧
          s'.handed = s.handed ∧ s'.frame.rx.lookup id = some t' := by
        split_ifs at hproc
        · exact ⟨_, _, hproc, by simp, AList.lookup_insert _⟩
        · exact ⟨_, _, hproc, by simp, AList.lookup_insert _⟩
      obtain ⟨s₁, b, hproc', hh₁, hl₁⟩ := hstep
      obtain ⟨s', hs', hrx, hh⟩ := handleFrameDecrypt_of env now hproc'
      refine ⟨s', hs', ?_⟩
      rw [Progress, if_neg hD', hrx, hh]
      exact ⟨hh₁.trans hhanded, t', hl₁, ht', hbits'⟩

/-- Any sequence of `FRAG` frames adds the numbers it contains. -/
lemma progress_frags (hm : m.length ≤ 32768) {t : TransitMessage}
    (ht : IsCut (env.shorthash m) id m t) (frames : List (UInt64 × Bytes))
    (hframes : ∀ a ∈ frames, IsFragOf t a.2) (hs : Progress env s₀ id m [] s) :
    ∃ s', recvAll env frames s = .ok s' ∧
      Progress env s₀ id m (frames.map fun a => fragnoOf a.2) s' := by
  induction frames using List.reverseRecOn with
  | nil => exact ⟨s, rfl, hs⟩
  | append_singleton frames a ih =>
      obtain ⟨s', hrun, hprog⟩ := ih fun b hb => hframes b (List.mem_append_left _ hb)
      obtain ⟨flags, fs, f, pad, hret, hmem, hbuf⟩ := hframes a (by simp)
      obtain ⟨fs', hret', hspec⟩ := ht.retransmitFrags hm flags
      obtain rfl : fs = fs' := Except.ok.inj (hret.symm.trans hret')
      obtain ⟨i, hi, -, rfl⟩ := (hspec f).mp hmem
      obtain ⟨s'', hstep, hprog'⟩ := progress_frag hm hprog hi a.1 flags pad
      refine ⟨s'', ?_, ?_⟩
      · rw [← hbuf] at hstep
        exact recvAll_snoc env hrun hstep
      · rw [List.map_append, List.map_singleton, hbuf, fragnoOf_fragFrameOf hm hi]
        exact hprog'

/-! ### The theorem -/

/-- **Fragment and reassemble is the identity.** A receiver whose `rx` does not know `id`
processes the `XMIT` frame of message `m`, then `FRAG` frames of `m` in any order and
multiplicity among which every fragment number occurs. Then `HandleRecvLinkMessage` is called
once, with the bytes of `m`, and `id` is gone from `rx`; and after any number of the frames it
has been called if and only if no fragment number was missing any more. -/
theorem fragment_reassemble (env : LinkEnv σ) (s : Session σ) (m : LinkMessage) (id : UInt64)
    (hid : id ∉ s.frame.rx) (now : UInt64) (flags : UInt8) (pad : Padding)
    (frames : List (UInt64 × Bytes))
    (hframes : ∀ a ∈ frames, IsFragOf (.putMessage m.1 (env.shorthash m.1) id) a.2)
    (hcover : Covers (.putMessage m.1 (env.shorthash m.1) id) frames) :
    let t := putMessage m.1 (env.shorthash m.1) id
    let xmit := (now, t.generateXmit flags ++ pad.1)
    (∃ s', recvAll env (xmit :: frames) s = .ok s' ∧
      s'.handed = s.handed ++ [(id, m.1)] ∧ id ∉ s'.frame.rx) ∧
    ∀ pre, pre <+: frames → ∃ s', recvAll env (xmit :: pre) s = .ok s' ∧
      s'.handed = s.handed ++ if Covers t pre then [(id, m.1)] else [] := by
  intro t xmit
  have hcut := (putMessage_isCut (env.shorthash m.1) id m.2).1
  have hnum : t.msginfo.numfrags = numfragsOf m.1 := hcut.numfrags m.2
  have hrun : ∀ pre, pre <+: frames → ∃ s', recvAll env (xmit :: pre) s = .ok s' ∧
      Progress env s id m.1 (pre.map fun a => fragnoOf a.2) s' := by
    intro pre hpre
    obtain ⟨s₁, hx, hp⟩ := progress_xmit m.2 hid now flags pad
    obtain ⟨s', hrec, hp'⟩ := progress_frags m.2 hcut pre
      (fun a ha => hframes a (hpre.subset ha)) hp
    refine ⟨s', ?_, hp'⟩
    rw [← hcut.generateXmit] at hx
    exact (recvAll_cons env hx).trans hrec
  constructor
  · obtain ⟨s', hs', hp⟩ := hrun frames (List.prefix_refl _)
    rw [Covers, show (putMessage m.1 (env.shorthash m.1) id).msginfo.numfrags =
      numfragsOf m.1 from hnum] at hcover
    rw [Progress, if_pos hcover] at hp
    exact ⟨s', hs', hp⟩
  · intro pre hpre
    obtain ⟨s', hs', hp⟩ := hrun pre hpre
    refine ⟨s', hs', ?_⟩
    have hiff : Covers t pre ↔ ∀ i < numfragsOf m.1, i ∈ pre.map fun a => fragnoOf a.2 := by
      rw [Covers, hnum]
    rw [Progress] at hp
    by_cases hc : Covers t pre
    · rw [if_pos (hiff.mp hc)] at hp
      rw [if_pos hc]
      exact hp.1
    · rw [if_neg (mt hiff.mpr hc)] at hp
      rw [if_neg hc, List.append_nil]
      exact hp.1

/-! ### One message -/

/-- A `DiscardMessage` of 1080 bytes of padding, as it is encoded. -/
def discardMessage : LinkMessage :=
  ⟨[100, 49, 58, 97, 49, 58, 122, 49, 58, 118, 105, 48, 101, 49, 58, 122, 49, 48, 56, 48, 58] ++
    (List.replicate 1080 122 ++ [101]), by
      rw [List.length_append, List.length_append, List.length_replicate]
      decide⟩

lemma discardMessage_length : discardMessage.1.length = 1102 := by
  rw [discardMessage, List.length_append, List.length_append, List.length_replicate]
  rfl

/-- The digest `crypto_generichash` gives of `discardMessage`. -/
def discardHash : Blob 32 :=
  ⟨[0x8d, 0xbc, 0x99, 0x03, 0xc2, 0x32, 0xa3, 0x8e, 0xc6, 0x62, 0x6d, 0x01, 0xb0, 0xfb, 0xa2,
   0x3d, 0x17, 0x04, 0x35, 0x9e, 0x0e, 0xfb, 0xfc, 0xca, 0x40, 0xb2, 0x0b, 0x48, 0xe8, 0x27,
   0x52, 0xaf], rfl⟩

/-- `discardMessage` has one full fragment; its `FRAG` frame arrives twice. -/
theorem fragment_reassemble_discard :
    let t := putMessage discardMessage.1 discardHash 1
    let xmit := t.generateXmit 0
    let frag := fragFrameOf 1 discardMessage.1 0 0
    ∃ s', recvAll (.discarding discardHash) [(0, xmit), (1, frag), (2, frag)]
      ⟨{}, .eEstablished, (), 0, [], [], []⟩ = .ok s' ∧ s'.handed = [(1, discardMessage.1)] ∧
      (1 : UInt64) ∉ s'.frame.rx := by
  intro t xmit frag
  have hm : discardMessage.1.length ≤ 32768 := discardMessage.2
  have hnum : numfragsOf discardMessage.1 = 1 := by
    rw [numfragsOf, discardMessage_length]
    decide
  have hcut := (putMessage_isCut discardHash 1 hm).1
  obtain ⟨frames, hframes, hspec⟩ := hcut.retransmitFrags hm 0
  have hstatus := (putMessage_isCut discardHash 1 hm).2
  have hfrag : IsFragOf t frag :=
    ⟨0, frames, frag, ⟨[], by decide⟩, hframes,
      (hspec frag).mpr ⟨0, by omega, by rw [hstatus]; rfl, rfl⟩, (List.append_nil _).symm⟩
  have hno : fragnoOf frag = 0 := by
    have := fragnoOf_fragFrameOf hm (i := 0) (by omega) 1 0 []
    rwa [List.append_nil] at this
  have hcover : Covers t [(1, frag), (2, frag)] := by
    intro i hi
    rw [hcut.numfrags hm] at hi
    obtain rfl : i = 0 := by omega
    simp [hno]
  have hmain := fragment_reassemble (.discarding discardHash)
    ⟨{}, .eEstablished, (), 0, [], [], []⟩ discardMessage 1
    (by simp) 0 0 ⟨[], by decide⟩ [(1, frag), (2, frag)] (fun a ha => by
      obtain rfl | rfl : a = (1, frag) ∨ a = (2, frag) := by simpa using ha
      · exact hfrag
      · exact hfrag) hcover
  have hx := hmain.1
  rw [List.append_nil] at hx
  exact hx

end Session

end Udap.Iwp
