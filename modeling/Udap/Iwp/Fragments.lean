import Udap.Iwp.TransitMessage
import Udap.Lib.Chunk

/-!
What the operations of `transit_message` do to a message of at most `MAX_LINK_MSG_SIZE` bytes.

* The status bitset: `getBitmask_eq`, `ack_status`, `completed_eq`.
* Sending: `putMessage_isCut`, every message is cut into at most thirty-one full fragments of
  `mtu` bytes and a last one; `retransmitFrags_eq`, the frames of exactly the fragments not
  acked.
* Receiving: `IsPartial m id t`, the inbound message `t` has stored what its status bits claim
  of `m`; it holds of a fresh one (`inbound_isPartial`), `putFrag` of a piece of `m` keeps it
  (`IsPartial.putFrag`), and once all bits are set `reassemble` gives `m` back
  (`IsPartial.reassemble`).
-/

namespace Udap.Iwp

open ByteMem Chunk

/-- The fragment size, the default `mtu` of the constructor. -/
def mtu : ℕ := 1024

/-- The number of full fragments of a message. -/
def numfragsOf (m : Bytes) : ℕ := numFull mtu m.length

/-- The `i`-th full fragment of a message. -/
def fragOf (m : Bytes) (i : ℕ) : Bytes := chunk mtu m i

/-- The last fragment of a message. -/
def lastfragOf (m : Bytes) : Bytes := m.drop (mtu * numfragsOf m)

/-- The header announcing message `m` with hash `h` under `id`. -/
def xmitOf (h : Blob 32) (id : UInt64) (m : Bytes) : Xmit :=
  .setInfo h id mtu (lastfragOf m).length (UInt8.ofNat (numfragsOf m))

/-- `MAX_LINK_MSG_SIZE` is thirty-two fragments, the last of which is never a full one. -/
lemma numfragsOf_le {m : Bytes} (hm : m.length ≤ 32768) : numfragsOf m ≤ 31 :=
  numFull_le (by decide) (by rw [mtu]; omega)

lemma lastfragOf_length_le (m : Bytes) : (lastfragOf m).length ≤ 1024 := by
  have h : m.length ≤ mtu * (numFull mtu m.length + 1) := le_numFull_succ (by decide)
  rw [lastfragOf, List.length_drop, numfragsOf]
  rw [Nat.mul_succ] at h
  have : mtu = 1024 := rfl
  omega

lemma fragOf_length {m : Bytes} {i : ℕ} (hi : i < numfragsOf m) : (fragOf m i).length = 1024 :=
  chunk_length hi

section XmitOf

variable (h : Blob 32) (id : UInt64) {m : Bytes}

@[simp] lemma xmitOf_hash : (xmitOf h id m).hash = h := by simp [xmitOf]

@[simp] lemma xmitOf_msgid : (xmitOf h id m).msgid = id := by simp [xmitOf]

@[simp] lemma xmitOf_fragsize : (xmitOf h id m).fragsize = 1024 := by simp [xmitOf, mtu]

@[simp] lemma xmitOf_flags : (xmitOf h id m).flags = 1 := by simp [xmitOf]

@[simp] lemma xmitOf_lastfrag : (xmitOf h id m).lastfrag = (lastfragOf m).length := by
  have := lastfragOf_length_le m
  rw [xmitOf, Xmit.lastfrag_setInfo]
  omega

lemma xmitOf_numfrags (hm : m.length ≤ 32768) : (xmitOf h id m).numfrags = numfragsOf m := by
  have := numfragsOf_le hm
  rw [xmitOf, Xmit.numfrags_setInfo, UInt8.toNat_ofNat']
  omega

end XmitOf

namespace TransitMessage

/-! ### The status bitset -/

/-- The loops over the status bits add the bits of `st` below `n`. -/
lemma getLsbD_foldl_or (st acc : BitVec 32) {n i : ℕ} (hi : i < 32) :
    ((List.range n).foldl (fun b idx => b ||| if st.getLsbD idx then BitVec.twoPow 32 idx else 0)
      acc).getLsbD i = (acc.getLsbD i || (decide (i < n) && st.getLsbD i)) := by
  induction n with
  | zero => simp
  | succ n ih =>
      rw [List.range_succ, List.foldl_append, List.foldl_cons, List.foldl_nil,
        BitVec.getLsbD_or, ih]
      rcases lt_trichotomy i n with h | rfl | h
      · have h1 : (if st.getLsbD n then BitVec.twoPow 32 n else 0).getLsbD i = false := by
          split <;> simp [BitVec.getLsbD_twoPow, h.ne']
        rw [h1]
        simp [h, Nat.lt_succ_of_lt h]
      · by_cases hb : st.getLsbD i = true
        · simp [hb, hi]
        · simp [hb]
      · have h1 : (if st.getLsbD n then BitVec.twoPow 32 n else 0).getLsbD i = false := by
          split <;> simp [BitVec.getLsbD_twoPow, h.ne]
        rw [h1]
        simp [h.not_gt, show ¬ i < n + 1 by omega]

lemma getBitmask_eq (msg : TransitMessage) : msg.getBitmask = msg.status := by
  apply BitVec.eq_of_getLsbD_eq
  intro i hi
  rw [getBitmask, getLsbD_foldl_or msg.status 0 hi]
  simp [hi]

lemma ack_status (mask : BitVec 32) (msg : TransitMessage) :
    (msg.ack mask).status = msg.status ||| mask := by
  have hstep : (fun (st : BitVec 32) idx =>
      if mask.getLsbD idx then st ||| BitVec.twoPow 32 idx else st) =
      fun b idx => b ||| if mask.getLsbD idx then BitVec.twoPow 32 idx else 0 := by
    funext st idx
    split <;> simp
  apply BitVec.eq_of_getLsbD_eq
  intro i hi
  simp only [ack, hstep]
  rw [getLsbD_foldl_or mask msg.status hi]
  simp [hi]

@[simp] lemma ack_msginfo (mask : BitVec 32) (msg : TransitMessage) :
    (msg.ack mask).msginfo = msg.msginfo := rfl

@[simp] lemma ack_frags (mask : BitVec 32) (msg : TransitMessage) :
    (msg.ack mask).frags = msg.frags := rfl

@[simp] lemma ack_lastfrag (mask : BitVec 32) (msg : TransitMessage) :
    (msg.ack mask).lastfrag = msg.lastfrag := rfl

/-- The first `n` status bits are set. -/
def Full (n : ℕ) (st : BitVec 32) : Prop := ∀ i < n, st.getLsbD i = true

instance (n : ℕ) (st : BitVec 32) : Decidable (Full n st) :=
  inferInstanceAs (Decidable (∀ i < n, st.getLsbD i = true))

/-- Bits that can be tested come before others. -/
lemma testAll_append (st : BitVec 32) (l l' : List ℕ) (h : ∀ i ∈ l, i < 32) :
    testAll st (l ++ l') = if l.all st.getLsbD then testAll st l' else .ok false := by
  induction l with
  | nil => rfl
  | cons i l ih =>
      have hi : statusTest st i = .ok (st.getLsbD i) := if_pos (h i (by simp))
      have ih := ih fun j hj => h j (List.mem_cons_of_mem i hj)
      by_cases hb : st.getLsbD i = true
      · simp [testAll, hi, hb, ih, bind, Except.bind]
      · simp [testAll, hi, hb, bind, Except.bind, pure, Except.pure]

lemma testAll_eq (st : BitVec 32) (l : List ℕ) (h : ∀ i ∈ l, i < 32) :
    testAll st l = .ok (l.all st.getLsbD) := by
  have happend := testAll_append st l [] h
  rw [List.append_nil] at happend
  rw [happend]
  cases l.all st.getLsbD <;> rfl

/-- A message of at most thirty-two full fragments tests its bits without a fault. -/
lemma completed_eq {msg : TransitMessage} (h : msg.msginfo.numfrags ≤ 32) :
    msg.completed = .ok (decide (Full msg.msginfo.numfrags msg.status)) := by
  rw [completed, testAll_eq _ _ fun i hi => by have := List.mem_range.mp hi; omega]
  congr 1
  rw [Bool.eq_iff_iff, decide_eq_true_iff, List.all_eq_true]
  exact ⟨fun H i hi => H i (List.mem_range.mpr hi), fun H i hi => H i (List.mem_range.mp hi)⟩

/-! ### Sending -/

/-- The loop of `put_message` cuts off the full pieces of what is left. -/
lemma cutFrags_spec {k : ℕ} (hk : 0 < k) (fuel : ℕ) (rest : Bytes) (fid : ℕ)
    (frags : AList fun _ : ℕ => Bytes) (hf : rest.length ≤ fuel)
    (hb : fid + numFull k rest.length < 256) :
    ∃ frags', cutFrags k fuel rest fid frags =
        (rest.drop (k * numFull k rest.length), fid + numFull k rest.length, frags') ∧
      ∀ i, frags'.lookup i = if fid ≤ i ∧ i < fid + numFull k rest.length
        then some (chunk k rest (i - fid)) else frags.lookup i := by
  induction fuel generalizing rest fid frags with
  | zero =>
      have h0 : numFull k rest.length = 0 := numFull_eq_zero hk (by omega)
      exact ⟨frags, by simp [cutFrags, h0], fun i => by rw [h0, if_neg (by omega)]⟩
  | succ fuel ih =>
      by_cases hlen : rest.length > k
      · have hs : numFull k rest.length = numFull k (rest.drop k).length + 1 := by
          rw [List.length_drop, numFull_eq_succ hk hlen]
        obtain ⟨frags', heq, hlook⟩ := ih (rest.drop k) (fid + 1)
          (frags.insert fid (rest.take k)) (by rw [List.length_drop]; omega) (by omega)
        refine ⟨frags', ?_, fun i => ?_⟩
        · rw [cutFrags, if_pos hlen, Nat.mod_eq_of_lt (by omega : fid + 1 < 256), heq, hs,
            List.drop_drop, Nat.mul_succ]
          simp only [Prod.mk.injEq, and_true]
          exact ⟨by rw [Nat.add_comm], by omega⟩
        · rw [hlook, hs]
          by_cases h1 : i = fid
          · subst h1
            rw [if_neg (by omega), if_pos (by omega), AList.lookup_insert, Nat.sub_self, chunk,
              Nat.mul_zero, List.drop_zero]
          · rw [AList.lookup_insert_ne h1]
            by_cases h2 : fid + 1 ≤ i ∧ i < fid + 1 + numFull k (rest.drop k).length
            · rw [if_pos h2, if_pos (by omega), chunk_drop]
              congr 2
              omega
            · rw [if_neg h2, if_neg (by omega)]
      · have h0 : numFull k rest.length = 0 := numFull_eq_zero hk (by omega)
        refine ⟨frags, ?_, fun i => by rw [h0, if_neg (by omega)]⟩
        rw [cutFrags, if_neg hlen, h0]
        simp

/-- `t` is message `m` cut up under `id`, whatever has been acked of it. -/
structure IsCut (h : Blob 32) (id : UInt64) (m : Bytes) (t : TransitMessage) : Prop where
  msginfo : t.msginfo = xmitOf h id m
  frags : ∀ i, t.frags.lookup i = if i < numfragsOf m then some (fragOf m i) else none
  lastfrag : t.lastfrag = lastfragOf m

/-- The outbound constructor cuts the message up and has nothing acked. -/
lemma putMessage_isCut (h : Blob 32) (id : UInt64) {m : Bytes} (hm : m.length ≤ 32768) :
    IsCut h id m (putMessage m h id) ∧ (putMessage m h id).status = 0 := by
  have hn := numfragsOf_le hm
  rw [numfragsOf] at hn
  obtain ⟨frags, heq, hlook⟩ := cutFrags_spec (k := mtu) (by decide) m.length m 0 ∅ le_rfl
    (by omega)
  have hput : putMessage m h id =
      { msginfo := xmitOf h id m, status := 0, frags := frags, lastfrag := lastfragOf m } := by
    have heq' : cutFrags 1024 m.length m 0 ∅ = (lastfragOf m, 0 + numfragsOf m, frags) := heq
    rw [putMessage, heq', Nat.zero_add]
    rfl
  rw [hput]
  refine ⟨⟨rfl, fun i => ?_, rfl⟩, rfl⟩
  rw [hlook i]
  by_cases hi : i < numfragsOf m
  · rw [if_pos hi, if_pos ⟨Nat.zero_le i, (Nat.zero_add (numfragsOf m)).symm ▸ hi⟩]
    rfl
  · rw [if_neg hi, if_neg fun hc => hi ((Nat.zero_add (numfragsOf m)) ▸ hc.2)]
    rfl

lemma IsCut.ack {h : Blob 32} {id : UInt64} {m : Bytes} {t : TransitMessage}
    (ht : IsCut h id m t) (mask : BitVec 32) : IsCut h id m (t.ack mask) :=
  ⟨ht.msginfo, ht.frags, ht.lastfrag⟩

/-- The number of full fragments of a cut message. -/
lemma IsCut.numfrags {h : Blob 32} {id : UInt64} {m : Bytes} {t : TransitMessage}
    (ht : IsCut h id m t) (hm : m.length ≤ 32768) : t.msginfo.numfrags = numfragsOf m := by
  rw [ht.msginfo, xmitOf_numfrags h id hm]

/-- The `XMIT` frame of message `m`. -/
def xmitFrame (h : Blob 32) (id : UInt64) (m : Bytes) (flags : UInt8) : Bytes :=
  initSendbuf .eXMIT ((lastfragOf m).length + 48) flags
    ((xmitOf h id m).buffer.1 ++ lastfragOf m)

/-- The `FRAG` frame of the `i`-th full fragment of message `m`. -/
def fragFrameOf (id : UInt64) (m : Bytes) (i : ℕ) (flags : UInt8) : Bytes :=
  initSendbuf .eFRAG 1033 flags (leBytes 8 id.toNat ++ (UInt8.ofNat i :: fragOf m i))

lemma IsCut.generateXmit {h : Blob 32} {id : UInt64} {m : Bytes} {t : TransitMessage}
    (ht : IsCut h id m t) (flags : UInt8) : t.generateXmit flags = xmitFrame h id m flags := by
  rw [TransitMessage.generateXmit, ht.msginfo, ht.lastfrag, xmitFrame]

lemma IsCut.fragFrame {h : Blob 32} {id : UInt64} {m : Bytes} {t : TransitMessage}
    (ht : IsCut h id m t) (flags : UInt8) {i : ℕ} (hi : i < numfragsOf m) :
    t.fragFrame flags i (fragOf m i) = fragFrameOf id m i flags := by
  have hs : slice (fragOf m i) 0 1024 = fragOf m i := by
    rw [← fragOf_length hi, slice_self]
  rw [TransitMessage.fragFrame, ht.msginfo, xmitOf_fragsize, xmitOf_msgid, hs, fragFrameOf]

/-- The loop of `retransmit_frags` over fragment numbers the bitset has. -/
lemma retransmitLoop_eq (t : TransitMessage) (flags : UInt8)
    (l : List (Sigma fun _ : ℕ => Bytes)) (hl : ∀ e ∈ l, e.1 < 32) :
    retransmitLoop t flags l = .ok ((l.filter fun e => !t.status.getLsbD e.1).map
      fun e => t.fragFrame flags e.1 e.2) := by
  induction l with
  | nil => rfl
  | cons e l ih =>
      have he : statusTest t.status e.1 = .ok (t.status.getLsbD e.1) := if_pos (hl e (by simp))
      have ih := ih fun e' he' => hl e' (List.mem_cons_of_mem e he')
      cases hb : t.status.getLsbD e.1 <;>
        simp [retransmitLoop, he, ih, hb, bind, Except.bind, pure, Except.pure]

/-- `retransmit_frags` writes one frame for each fragment that is not acked, and no other. -/
lemma IsCut.retransmitFrags {h : Blob 32} {id : UInt64} {m : Bytes} {t : TransitMessage}
    (ht : IsCut h id m t) (hm : m.length ≤ 32768) (flags : UInt8) :
    ∃ frames, t.retransmitFrags flags = .ok frames ∧ ∀ f, f ∈ frames ↔
      ∃ i < numfragsOf m, t.status.getLsbD i = false ∧ f = fragFrameOf id m i flags := by
  have hn := numfragsOf_le hm
  have hmem : ∀ e : (Sigma fun _ : ℕ => Bytes), e ∈ t.frags.entries ↔
      e.1 < numfragsOf m ∧ e.2 = fragOf m e.1 := by
    rintro ⟨i, b⟩
    rw [← AList.mem_lookup_iff, ht.frags i]
    by_cases hi : i < numfragsOf m
    · simp [hi, eq_comm]
    · simp [hi]
  refine ⟨_, retransmitLoop_eq t flags _ fun e he => ?_, fun f => ?_⟩
  · have := ((hmem e).mp he).1
    omega
  · simp only [List.mem_map, List.mem_filter, hmem]
    constructor
    · rintro ⟨⟨i, b⟩, ⟨⟨hi, hb⟩, hst⟩, rfl⟩
      obtain rfl : b = fragOf m i := hb
      exact ⟨i, hi, by simpa using hst, ht.fragFrame flags hi⟩
    · rintro ⟨i, hi, hst, rfl⟩
      exact ⟨⟨i, fragOf m i⟩, ⟨⟨hi, rfl⟩, by simp [hst]⟩, ht.fragFrame flags hi⟩

/-! ### Receiving -/

/-- `t` is being put together from pieces of message `m`: the header is that of `m`, every
fragment is allocated, and those the status claims are pieces of `m`. -/
structure IsPartial (h : Blob 32) (id : UInt64) (m : Bytes) (t : TransitMessage) : Prop where
  msginfo : t.msginfo = xmitOf h id m
  frags : ∀ i < numfragsOf m, ∃ b, t.frags.lookup i = some b ∧ b.length = 1024 ∧
    (t.status.getLsbD i = true → b = fragOf m i)
  lastfrag : t.lastfrag = lastfragOf m

lemma IsPartial.numfrags {h : Blob 32} {id : UInt64} {m : Bytes} {t : TransitMessage}
    (ht : IsPartial h id m t) (hm : m.length ≤ 32768) : t.msginfo.numfrags = numfragsOf m := by
  rw [ht.msginfo, xmitOf_numfrags h id hm]

/-- The allocation loop of the inbound constructor. -/
lemma lookup_foldl_insert (b : Bytes) {n i : ℕ} (hi : i < n) :
    ((List.range n).foldl (fun frags idx => AList.insert idx b frags)
      (∅ : AList fun _ : ℕ => Bytes)).lookup i = some b := by
  induction n with
  | zero => omega
  | succ n ih =>
      rw [List.range_succ, List.foldl_append, List.foldl_cons, List.foldl_nil]
      by_cases h : i = n
      · subst h
        exact AList.lookup_insert _
      · rw [AList.lookup_insert_ne h]
        exact ih (by omega)

/-- A freshly announced message has stored nothing but its last fragment. -/
lemma inbound_isPartial (h : Blob 32) (id : UInt64) {m : Bytes} (hm : m.length ≤ 32768) :
    IsPartial h id m ((inbound (xmitOf h id m)).putLastfrag (lastfragOf m)) := by
  refine ⟨rfl, fun i hi => ⟨List.replicate (xmitOf h id m).fragsize 0, ?_, ?_, fun hst => ?_⟩,
    rfl⟩
  · rw [← xmitOf_numfrags h id hm] at hi
    exact lookup_foldl_insert _ hi
  · rw [List.length_replicate, xmitOf_fragsize]
  · have h0 : (BitVec.ofNat 32 0).getLsbD i = true := hst
    simp at h0

/-- Storing a piece of the message. -/
lemma IsPartial.putFrag {h : Blob 32} {id : UInt64} {m : Bytes} {t : TransitMessage}
    (ht : IsPartial h id m t) (hm : m.length ≤ 32768) {i : ℕ} (hi : i < numfragsOf m) :
    ∃ t', t.putFrag i (fragOf m i) = .ok (some t') ∧ IsPartial h id m t' ∧
      t'.status = t.status ||| BitVec.twoPow 32 i := by
  have hn := numfragsOf_le hm
  obtain ⟨b, hb, hlen, _⟩ := ht.frags i hi
  have hs : slice (fragOf m i) 0 1024 = fragOf m i := by
    rw [← fragOf_length hi, slice_self]
  have hcopy : memcpy b 0 (fragOf m i) = fragOf m i := by
    have hlen' : b.length = (fragOf m i).length := by rw [hlen, fragOf_length hi]
    simpa using memcpy_at (a := []) (c := []) rfl hlen'
  have hset : statusSet t.status i = .ok (t.status ||| BitVec.twoPow 32 i) :=
    if_pos (by omega)
  refine ⟨{ t with
    status := t.status ||| BitVec.twoPow 32 i
    frags := t.frags.insert i (fragOf m i) }, ?_, ⟨ht.msginfo, fun j hj => ?_, ht.lastfrag⟩, rfl⟩
  · simp [TransitMessage.putFrag, hb, hset, ht.msginfo, hs, hcopy, bind, Except.bind, pure,
      Except.pure]
  · by_cases hji : j = i
    · subst hji
      exact ⟨fragOf m j, AList.lookup_insert _, fragOf_length hj, fun _ => rfl⟩
    · obtain ⟨c, hc, hclen, hcst⟩ := ht.frags j hj
      refine ⟨c, by rw [AList.lookup_insert_ne hji, hc], hclen, fun hst => hcst ?_⟩
      simpa [BitVec.getLsbD_or, BitVec.getLsbD_twoPow, Ne.symm hji] using hst

/-- The copy loop of `reassemble` over fragments that have arrived. -/
lemma IsPartial.copyFrags {h : Blob 32} {id : UInt64} {m : Bytes} {t : TransitMessage}
    (ht : IsPartial h id m t) (hm : m.length ≤ 32768) (hfull : Full (numfragsOf m) t.status)
    (l : List ℕ) (hl : ∀ i ∈ l, i < numfragsOf m) (pre tail : Bytes) :
    t.copyFrags l (pre ++ (List.replicate (1024 * l.length) 0 ++ tail)) pre.length =
      .ok (some (pre ++ ((l.map (fragOf m)).flatten ++ tail), pre.length + 1024 * l.length)) := by
  have hn := numfragsOf_le hm
  induction l generalizing pre with
  | nil => simp [TransitMessage.copyFrags]
  | cons i l ih =>
      have hi := hl i (by simp)
      have htest : statusTest t.status i = .ok true := by
        rw [statusTest, if_pos (by omega), hfull i hi]
      obtain ⟨b, hb, _, hbst⟩ := ht.frags i hi
      have hbi : b = fragOf m i := hbst (hfull i hi)
      have hs : slice (fragOf m i) 0 1024 = fragOf m i := by
        rw [← fragOf_length hi, slice_self]
      have hcopy : memcpy (pre ++ (List.replicate (1024 * (i :: l).length) 0 ++ tail)) pre.length
          (fragOf m i) =
          (pre ++ fragOf m i) ++ (List.replicate (1024 * l.length) 0 ++ tail) := by
        have hrep : List.replicate (1024 * (i :: l).length) (0 : UInt8) =
            List.replicate 1024 0 ++ List.replicate (1024 * l.length) 0 := by
          rw [← List.replicate_add, List.length_cons, Nat.mul_succ, Nat.add_comm]
        rw [hrep, List.append_assoc,
          memcpy_at rfl (by rw [List.length_replicate, fragOf_length hi]), List.append_assoc]
      have hplen : pre.length + 1024 = (pre ++ fragOf m i).length := by
        rw [List.length_append, fragOf_length hi]
      have ih := ih (fun j hj => hl j (List.mem_cons_of_mem i hj)) (pre ++ fragOf m i)
      simp only [TransitMessage.copyFrags, htest, hb, hbi, ht.msginfo, xmitOf_fragsize, hs, bind,
        Except.bind, Option.getD_some, if_true]
      rw [hcopy, hplen, ih, List.map_cons, List.flatten_cons, List.length_append,
        fragOf_length hi, List.length_cons]
      simp only [List.append_assoc, Nat.mul_succ, Except.ok.injEq, Option.some.injEq,
        Prod.mk.injEq, true_and]
      omega

/-- A message all of whose fragments have arrived is put together again. -/
lemma IsPartial.reassemble {h : Blob 32} {id : UInt64} {m : Bytes} {t : TransitMessage}
    (ht : IsPartial h id m t) (hm : m.length ≤ 32768) (hfull : Full (numfragsOf m) t.status) :
    t.reassemble = .ok (some m) := by
  have hinit : List.replicate t.msginfo.totalsize (0 : UInt8) =
      [] ++ (List.replicate (1024 * (List.range (numfragsOf m)).length) 0 ++
        List.replicate (lastfragOf m).length 0) := by
    rw [Xmit.totalsize, ht.numfrags hm, ht.msginfo, xmitOf_fragsize, xmitOf_lastfrag,
      List.length_range, List.nil_append, ← List.replicate_add]
  have hcopy := ht.copyFrags hm hfull (List.range (numfragsOf m))
    (fun i hi => List.mem_range.mp hi) [] (List.replicate (lastfragOf m).length 0)
  have hlen : ((List.range (numfragsOf m)).map (fragOf m)).flatten.length =
      1024 * numfragsOf m := by
    have hle := mul_numFull_le mtu m.length
    rw [show (fragOf m) = chunk mtu m from rfl, flatten_chunks, List.length_take]
    exact Nat.min_eq_left hle
  have hlast := memcpy_at (a := ((List.range (numfragsOf m)).map (fragOf m)).flatten)
    (b := List.replicate (lastfragOf m).length 0) (c := []) (s := lastfragOf m) hlen (by simp)
  rw [List.append_nil, List.append_nil] at hlast
  rw [← hinit] at hcopy
  simp only [TransitMessage.reassemble, ht.numfrags hm, bind, Except.bind]
  rw [show [].length = 0 from rfl] at hcopy
  rw [hcopy]
  simp only [List.nil_append, List.length_range, ht.lastfrag, Nat.zero_add, hlast]
  exact congrArg (fun b => Except.ok (some b)) (flatten_chunks_append m (numfragsOf m))

end TransitMessage

end Udap.Iwp
