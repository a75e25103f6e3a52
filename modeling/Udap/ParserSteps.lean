import Udap.Bencode.Steps
import Udap.Bencode.Trace
import Udap.LinkMessage

/-!
The loops of the parser of link messages end.

A link message is a dictionary, with lists of DHT messages, contacts, addresses, exits and frames
inside. Each of the readers is run here with its iterations counted and logged; the readers of
strings and integers, which have no such loop, are taken over as they are.

* `AddressInfo.traces`, `RouterContact.traces`, `Dht.traces_messageList`: the parts of a message,
  from the inside out.
* `parsing_terminates`: every buffer is parsed within as many iterations, at all levels together, as
  bytes are left in it.
-/

namespace Udap

open ByteMem

/-! ### Contacts -/

namespace AddressInfo

variable {lib : HostLib}

lemma movesOn_decodeKey (key : Bytes) : MovesOn (decodeKey lib (some key)) := by
  rw [decodeKey]
  split_ifs
  · exact movesOn_integer _
  · exact movesOn_string _
  · exact movesOn_blob _ _
  · exact movesOn_string _
  · exact movesOn_integer _
  · exact movesOn_version
  · exact movesOn_bad

/-- `udap_ai_bdecode`. -/
def traced (lib : HostLib) : Traced AddressInfo :=
  .dict (fun key => .lift (decodeKey lib (some key))) (decodeKey lib none)

lemma traces (lib : HostLib) : Traces (traced lib) (bdecode lib) :=
  .dict (fun key => .lift (movesOn_decodeKey key)) fun _ _ _ h => (Option.some.inj h).symm

end AddressInfo

/-- `udap_ai_list_bdecode`. -/
def aiListTraced (lib : HostLib) (u : Uninit) : Traced (List AddressInfo) :=
  .list (.item (fun b => u.ai b.cur) (fun l ai => some (l ++ [ai])) (AddressInfo.traced lib))

lemma traces_aiList (lib : HostLib) (u : Uninit) :
    Traces (aiListTraced lib u) (aiListBdecode lib u) :=
  .list ((AddressInfo.traces lib).item fun l b => by
    rcases AddressInfo.bdecode lib (u.ai b.cur) b with ⟨ai, _ | b'⟩ <;> rfl) rfl

namespace ExitInfo

variable {lib : HostLib}

lemma movesOn_decodeDict (key : Bytes) : MovesOn (decodeDict lib (some key)) := by
  rw [decodeDict]
  split_ifs
  · exact movesOn_string _
  · exact movesOn_string _
  · exact movesOn_blob _ _
  · exact movesOn_version
  · exact movesOn_bad

/-- `udap_xi_bdecode`. -/
def traced (lib : HostLib) : Traced ExitInfo :=
  .dict (fun key => .lift (decodeDict lib (some key))) (decodeDict lib none)

lemma traces (lib : HostLib) : Traces (traced lib) (bdecode lib) :=
  .dict (fun key => .lift (movesOn_decodeDict key)) fun _ _ _ h => (Option.some.inj h).symm

end ExitInfo

/-- `udap_xi_list_bdecode`. -/
def xiListTraced (lib : HostLib) : Traced (List ExitInfo) :=
  .bencodeReadList {} (ExitInfo.traced lib)

lemma traces_xiList (lib : HostLib) : Traces (xiListTraced lib) (xiListBdecode lib) :=
  (ExitInfo.traces lib).bencodeReadList {}

namespace RouterContact

/-- `udap_rc_decode_dict` on a key. -/
def tracedKey (lib : HostLib) (u : Uninit) (key : Bytes) : Traced RouterContact :=
  if isKey key 'a' then
    .part (fun _ => []) (fun rc l => { rc with addrs := some l }) (aiListTraced lib u)
  else if isKey key 'x' then
    .part (fun _ => []) (fun rc l => { rc with exits := some l }) (xiListTraced lib)
  else .lift (decodeDict lib u (some key))

lemma traces_key (lib : HostLib) (u : Uninit) (key : Bytes) :
    Traces (tracedKey lib u key) (decodeDict lib u (some key)) := by
  rw [tracedKey]
  split_ifs with ha hx
  · rw [decodeDict, if_pos ha]
    exact (traces_aiList lib u).part
  · have hk : isKey key 'k' = false := isKey_eq_false hx (by decide)
    have hp : isKey key 'p' = false := isKey_eq_false hx (by decide)
    have hu : isKey key 'u' = false := isKey_eq_false hx (by decide)
    have hv : isKey key 'v' = false := isKey_eq_false hx (by decide)
    have hread : decodeDict lib u (some key) =
        .part (fun _ => []) (fun rc l => { rc with exits := some l }) (xiListBdecode lib) := by
      simp [decodeDict, ha, hx, hk, hp, hu, hv]
    rw [hread]
    exact (traces_xiList lib).part
  · refine .lift ?_
    rw [decodeDict, if_neg ha, if_neg hx]
    split_ifs
    · exact movesOn_blob _ _
    · exact movesOn_blob _ _
    · exact movesOn_readInteger.part
    · exact movesOn_version
    · exact movesOn_blob _ _
    · exact movesOn_bad

/-- `udap_rc_bdecode`. -/
def traced (lib : HostLib) (u : Uninit) : Traced RouterContact :=
  .dict (tracedKey lib u) (decodeDict lib u none)

lemma traces (lib : HostLib) (u : Uninit) : Traces (traced lib u) (bdecode lib u) :=
  .dict (traces_key lib u) fun _ _ _ h => (Option.some.inj h).symm

end RouterContact

/-! ### DHT messages -/

namespace Dht

lemma FindRouterMessage.movesOn_decodeKey (key : Bytes) :
    MovesOn (FindRouterMessage.decodeKey key) := by
  rw [FindRouterMessage.decodeKey]
  split_ifs
  · exact movesOn_integer _
  · exact movesOn_blob _ _
  · exact movesOn_readInteger.part
  · exact movesOn_readInteger.part
  · exact movesOn_bad

/-- The version of a found router is compared behind its read. -/
lemma movesOn_checkedVersion : MovesOn fun v b =>
    match b.readInteger v with
    | (v, b) => (v, if v = protoVersion then b else none) := by
  intro v b b' h
  simp only at h
  split_ifs at h
  exact movesOn_readInteger v b b' h

namespace GotRouterMessage

/-- `GotRouterMessage::DecodeKey`. -/
def tracedKey (lib : HostLib) (u : Uninit) (key : Bytes) : Traced GotRouterMessage :=
  if isKey key 'R' then
    .part (·.R) (fun m l => { m with R := l }) (.bencodeReadList {} (RouterContact.traced lib u))
  else .lift (decodeKey lib u key)

lemma traces_key (lib : HostLib) (u : Uninit) (key : Bytes) :
    Traces (tracedKey lib u key) (decodeKey lib u key) := by
  rw [tracedKey]
  split_ifs with hR
  · rw [decodeKey, if_pos hR]
    exact ((RouterContact.traces lib u).bencodeReadList {}).part
  · refine .lift ?_
    rw [decodeKey, if_neg hR]
    split_ifs
    · exact movesOn_readInteger.part
    · exact movesOn_checkedVersion.part
    · exact movesOn_bad

end GotRouterMessage

namespace MessageDecoder

/-- `MessageDecoder::on_key` on a key. -/
def tracedKey (lib : HostLib) (u : Uninit) (From : PubKey) (key : Bytes) :
    Traced MessageDecoder := fun n dec b =>
  if dec.firstKey then Traced.lift (onKey lib u From (some key)) n dec b
  else
    match dec.msg with
    | some (.gotRouter m) =>
        Traced.part (fun _ => m) (fun dec m => { dec with msg := some (.gotRouter m) })
          (GotRouterMessage.tracedKey lib u key) n dec b
    | _ => Traced.lift (onKey lib u From (some key)) n dec b

lemma traces_key (lib : HostLib) (u : Uninit) (From : PubKey) (key : Bytes) :
    Traces (tracedKey lib u From key) (onKey lib u From (some key)) := by
  intro dec b
  by_cases hfirst : dec.firstKey
  · simp only [tracedKey, if_pos hfirst]
    refine traces_lift fun b' h => ?_
    simp only [onKey, if_pos hfirst] at h
    split_ifs at h
    exact movesOn_string _ dec b b' h
  · simp only [tracedKey, if_neg hfirst]
    cases hmsg : dec.msg with
    | none =>
        refine traces_lift fun b' h => ?_
        simp [onKey, hfirst, hmsg] at h
    | some msg =>
        cases msg with
        | findRouter m =>
            refine traces_lift fun b' h => ?_
            simp only [onKey, if_neg hfirst, hmsg] at h
            exact (FindRouterMessage.movesOn_decodeKey key).part dec b b' h
        | gotRouter m =>
            simp only [onKey, if_neg hfirst, hmsg]
            exact (GotRouterMessage.traces_key lib u key).part dec b

end MessageDecoder

/-- `DecodeMesssageList`. -/
def messageListTraced (lib : HostLib) (u : Uninit) (From : PubKey) : Traced (List Message) :=
  .list (.item (fun _ => {}) (fun l dec => dec.msg.map fun msg => l ++ [msg])
    (.dict (MessageDecoder.tracedKey lib u From) (MessageDecoder.onKey lib u From none)))

lemma traces_messageList (lib : HostLib) (u : Uninit) (From : PubKey) :
    Traces (messageListTraced lib u From) (decodeMesssageList lib u From) := by
  have hdict : Traces (.dict (MessageDecoder.tracedKey lib u From)
      (MessageDecoder.onKey lib u From none)) (readDict (MessageDecoder.onKey lib u From)) := by
    refine .dict (MessageDecoder.traces_key lib u From) fun dec b b' h => ?_
    simp only [MessageDecoder.onKey] at h
    split_ifs at h
    exact (Option.some.inj h).symm
  refine .list (hdict.item fun l b => ?_) rfl
  rcases readDict (MessageDecoder.onKey lib u From) {} b with ⟨⟨firstKey, _ | msg⟩, _ | b'⟩ <;> rfl

end Dht

/-! ### Link messages -/

lemma movesOn_encryptedBdecode : MovesOn encryptedBdecode := movesOn_string _

lemma RelayMessage.movesOn_decodeKey (key : Bytes) : MovesOn (RelayMessage.decodeKey key) := by
  rw [RelayMessage.decodeKey]
  split_ifs
  · exact movesOn_blob _ _
  · exact movesOn_version
  · exact movesOn_encryptedBdecode.part
  · exact movesOn_blob _ _
  · exact movesOn_bad

namespace InboundMessageParser

variable {ρ : Type}

/-- `LinkIntroMessage::DecodeKey`. -/
def tracedIntro (lib : HostLib) (u : Uninit) (key : Bytes) : Traced RouterContact :=
  if isKey key 'r' then RouterContact.traced lib u else .lift (introDecodeKey lib u key)

/-- The value of an entry that may be a list, in a message that has one other entry, its version. -/
def tracedValue {α : Type} (key : Bytes) (c : Char) (t : Traced α) : Traced α :=
  if isKey key c then t else .lift (if isKey key 'v' then .version else .bad)

/-- `DecodeKey` of the message being read. -/
def tracedDecodeKey (lib : HostLib) (u : Uninit) (key : Bytes) :
    LinkMsg → Traced (InboundMessageParser ρ)
  | .intro => .part (·.remoteRouter) (fun p rc => { p with remoteRouter := rc })
      (tracedIntro lib u key)
  | .dhtImmediate remote msgs =>
      .part (fun _ => msgs) (fun p msgs => { p with msg := some (.dhtImmediate remote msgs) })
        (tracedValue key 'm' (Dht.messageListTraced lib u remote))
  | .lrCommit remote frames =>
      .part (fun _ => frames) (fun p frames => { p with msg := some (.lrCommit remote frames) })
        (tracedValue key 'c' (.bencodeReadList (List.replicate 352 0) (.lift encryptedBdecode)))
  | msg => .lift (decodeKey lib u key msg)

/-- `OnKey` on a key. -/
def tracedKey (lib : HostLib) (u : Uninit) (handle : Handler ρ) (key : Bytes) :
    Traced (InboundMessageParser ρ) := fun n p b =>
  if p.firstkey then Traced.lift (onKey lib u handle (some key)) n p b
  else
    match p.msg with
    | none => some ([], p, none)
    | some msg => tracedDecodeKey lib u key msg n p b

/-- `ProcessFrom` on a buffer at any position. -/
def processBuffer (lib : HostLib) (u : Uninit) (handle : Handler ρ) (b : Buffer)
    (p : InboundMessageParser ρ) : InboundMessageParser ρ × Bool :=
  match readDict (onKey lib u handle) { p with firstkey := true } b with
  | (p, b) => (p, b.isSome)

/-- `ProcessFrom` with at most `n` iterations of each loop, and the log of them. -/
def tracedProcess (lib : HostLib) (u : Uninit) (handle : Handler ρ) (n : ℕ) (b : Buffer)
    (p : InboundMessageParser ρ) : Option (List LoopEvent × InboundMessageParser ρ × Bool) :=
  match Traced.dict (tracedKey lib u handle) (onKey lib u handle none) n
      { p with firstkey := true } b with
  | none => none
  | some (l, p, b) => some (l, p, b.isSome)

section Termination

variable (lib : HostLib) (u : Uninit) (handle : Handler ρ)

lemma traces_intro (key : Bytes) : Traces (tracedIntro lib u key) (introDecodeKey lib u key) := by
  rw [tracedIntro]
  split_ifs with hr
  · rw [introDecodeKey, if_pos hr]
    exact RouterContact.traces lib u
  · refine .lift ?_
    rw [introDecodeKey, if_neg hr]
    split_ifs
    · exact movesOn_version
    · exact movesOn_bad

lemma traces_value {α : Type} {t : Traced α} {r : Reader α} (h : Traces t r) (key : Bytes)
    (c : Char) : Traces (tracedValue key c t)
      (if isKey key c then r else if isKey key 'v' then .version else .bad) := by
  rw [tracedValue]
  split_ifs
  · exact h
  · exact .lift movesOn_version
  · exact .lift movesOn_bad

lemma traces_decodeKey (key : Bytes) (msg : LinkMsg) :
    Traces (tracedDecodeKey (ρ := ρ) lib u key msg) (decodeKey lib u key msg) := by
  cases msg with
  | intro => exact (traces_intro lib u key).part
  | relayDownstream m => exact .lift (RelayMessage.movesOn_decodeKey key).part
  | relayUpstream m => exact .lift (RelayMessage.movesOn_decodeKey key).part
  | dhtImmediate remote msgs =>
      exact (traces_value (Dht.traces_messageList lib u remote) key 'm').part
  | lrAck remote => exact .lift movesOn_bad
  | lrCommit remote frames =>
      have hframes := (Traces.lift movesOn_encryptedBdecode).bencodeReadList (List.replicate 352 0)
      exact (traces_value hframes key 'c').part
  | discard remote pad =>
      refine .lift (MovesOn.part ?_)
      split_ifs
      · exact movesOn_version
      · exact movesOn_string _
      · exact movesOn_bad

lemma traces_key (key : Bytes) :
    Traces (tracedKey lib u handle key) (onKey lib u handle (some key)) := by
  intro p b
  by_cases hfirst : p.firstkey
  · simp only [tracedKey, if_pos hfirst]
    refine traces_lift fun b' h => ?_
    simp only [onKey, if_pos hfirst] at h
    split_ifs at h
    exact movesOn_string _ p b b' h
  · simp only [tracedKey, onKey, if_neg hfirst]
    cases p.msg with
    | none => exact ⟨[], fun _ _ => rfl, .nil fun b' h => by cases h⟩
    | some msg => exact traces_decodeKey lib u key msg p b

/-- The end of a message is handled where the parser stands. -/
lemma stays_onKey_none : Stays (onKey lib u handle none) := by
  intro p b b' h
  simp only [onKey] at h
  split_ifs at h
  · exact (Option.some.inj h).symm

end Termination

/-- **Parsing terminates.** For every buffer at every position there is a log of the iterations of
all loops, dictionaries and lists at every level, with which `ProcessFrom` returns whatever bound
from the bytes left on is put on each of its loops. In it an iteration that succeeds moves on; after
one that fails nothing comes but the failures of those around it, and the message is refused; and no
more iterations begin than bytes are left. -/
theorem parsing_terminates (lib : HostLib) (u : Uninit) (handle : Handler ρ)
    (p : InboundMessageParser ρ) (b : Buffer) :
    ∃ l : List LoopEvent,
      (∀ n ≥ b.sizeLeft, tracedProcess lib u handle n b p =
        some (l, processBuffer lib u handle b p)) ∧
      (∀ s ∈ LoopEvent.stepped l, s.1 < s.2) ∧
      (∃ before k, l = before ++ List.replicate k .abort ∧ .abort ∉ before ∧
        (LoopEvent.entered l).length = (LoopEvent.stepped l).length + k) ∧
      (.abort ∈ l → (processBuffer lib u handle b p).2 = false) ∧
      (LoopEvent.entered l).length ≤ b.sizeLeft ∧
      ∀ msg after, b = .ofBytes msg after →
        processBuffer lib u handle b p = processFrom lib u handle after msg p := by
  have hdict := Traces.dict (traces_key lib u handle) (stays_onKey_none lib u handle)
  obtain ⟨l, hrun, hlog⟩ := hdict { p with firstkey := true } b
  refine ⟨l, fun n hn => ?_, hlog.forward, hlog.aborts, fun habort => ?_, ?_, ?_⟩
  · rw [tracedProcess, hrun n hn]
    rfl
  · have hnone : (readDict (onKey lib u handle) { p with firstkey := true } b).2 = none := by
      by_contra hsome
      obtain ⟨b', hb'⟩ := Option.ne_none_iff_exists'.mp hsome
      exact (hlog.ended b' hb').1 habort
    rw [processBuffer]
    simp only [hnone, Option.isSome_none]
  · exact hlog.length_le.trans (Nat.sub_le_sub_left (Nat.le_succ _) _)
  · rintro msg after rfl
    rfl

end InboundMessageParser

end Udap
