import Udap.LinkCodec
import Udap.ContactSignature
import Udap.Path.CommitRecord
import Udap.Routing.Message

/-!
Every message that is encoded is decoded again, at every capacity of the buffer.

* `messages_round_trip`: the messages of the link, the records of a path build and the routing
  messages. A byte string must be shorter than `10 ^ 9`.
* `long_payload_misread`: the length of a longer byte string has a tenth digit that the reader
  takes for the colon. The payload that is then handed over is another one.
-/

namespace Udap

open ByteMem InboundMessageParser

section

variable {ρ : Type} {lib : HostLib}

/-- Whenever an encoder reports success, the parser comes to the end of the bytes it wrote,
whatever follows them, with the same message. -/
theorem messages_round_trip (h : lib.Lawful) (u : Uninit) (handle : Handler ρ)
    (p : InboundMessageParser ρ) :
    (∀ m : RelayMessage, m.X ≠ [] → m.X.length < 10 ^ 9 →
      RoundTrips (relayUpstreamBencode m) (parse lib u handle) p
        (Dispatches handle p (· = .relayUpstream { m with remote := p.remoteRouter.pubkey })) ∧
      RoundTrips (relayDownstreamBencode m) (parse lib u handle) p
        (Dispatches handle p (· = .relayDownstream { m with remote := p.remoteRouter.pubkey }))) ∧
    (∀ frames : List Bytes, (∀ f ∈ frames, f ≠ [] ∧ f.length < 10 ^ 9) →
      RoundTrips (lrCommitBencode frames) (parse lib u handle) p
        (Dispatches handle p (· = .lrCommit p.remoteRouter.pubkey frames))) ∧
    (∀ pad : Bytes, pad.length ≤ maxDiscardSize →
      RoundTrips (discardBencode pad) (parse lib u handle) p
        (Dispatches handle p (· = .discard p.remoteRouter.pubkey pad))) ∧
    (∀ rc : RouterContact, rc.WellFormed → rc.lastUpdated ≠ -1 →
      RoundTrips (linkIntroBencode lib (some rc)) (parse lib u handle) p fun p' ok =>
        ok = true ∧ p'.dispatched = p.dispatched ++ [.intro] ∧
          (rc.decodedOver p.remoteRouter).Same p'.remoteRouter) ∧
    (∀ msgs : List Dht.Message, (∀ m ∈ msgs, m.WellFormed) →
      RoundTrips (dhtImmediateBencode lib msgs) (parse lib u handle) p
        (Dispatches handle p fun msg => ∃ msgs',
          List.Forall₂ (Dht.Message.Same p.remoteRouter.pubkey) msgs msgs' ∧
            msg = .dhtImmediate p.remoteRouter.pubkey msgs')) ∧
    (∀ r r₀ : LRCommitRecord, r.work = false → r₀.work = false →
      RoundTrips r.bencode LRCommitRecord.bdecode r₀ fun r' ok => ok = true ∧ r' = r) ∧
    (∀ (m : Routing.PathConfirmMessage) (q : Routing.InboundMessageParser),
      m.pathLifetime ≠ -1 → m.pathCreated ≠ -1 →
      RoundTrips m.bencode Routing.InboundMessageParser.parse q fun q' ok =>
        ok = true ∧ q'.msg = some (.pathConfirm m)) ∧
    ∀ (m : Routing.PathLatencyMessage) (q : Routing.InboundMessageParser), m.L ≠ -1 → m.T ≠ -1 →
      RoundTrips m.bencode Routing.InboundMessageParser.parse q fun q' ok =>
        ok = true ∧ q'.msg = some (.pathLatency m) := by
  refine ⟨fun m hne hlen => ⟨?_, ?_⟩, fun frames hframes => ?_, fun pad hpad => ?_,
    fun rc hrc htime => ?_, fun msgs hmsgs => ?_, fun r r₀ hr hr₀ => ?_, fun m q hL hS => ?_,
    fun m q hL hT => ?_⟩
  · exact (m.sure_bencode 'u').roundTrips (ends_relay 'u' (fun _ _ => rfl) rfl m hne hlen)
  · exact (m.sure_bencode 'd').roundTrips (ends_relay 'd' (fun _ _ => rfl) rfl m hne hlen)
  · exact (sure_lrCommitBencode frames).roundTrips (ends_lrCommit hframes)
  · exact (sure_discardBencode pad).roundTrips (ends_discard hpad)
  · exact (sure_linkIntroBencode h rc).roundTrips (ends_linkIntro h hrc htime)
  · exact (sure_dhtImmediateBencode h msgs).roundTrips (ends_dhtImmediate h hmsgs)
  · exact (LRCommitRecord.sure_bencode hr).roundTrips (LRCommitRecord.reads_bdecode hr hr₀).ends
  · exact m.sure_bencode.roundTrips
      (Routing.InboundMessageParser.reads_parse_pathConfirm hL hS q).ends
  · exact m.sure_bencode.roundTrips
      (Routing.InboundMessageParser.reads_parse_pathLatency hL hT q).ends

end

/-- A relay message in a host and a memory that are all there is to it. -/
theorem messages_round_trip_relay :
    let m : RelayMessage :=
      { remote := zeroBlob 32, pathid := zeroBlob 16, X := [ascii 'x'], Y := zeroBlob 32 }
    let p : InboundMessageParser Unit :=
      { firstkey := true, msg := none, remoteRouter := {}, router := () }
    let handle : Handler Unit := fun _ _ => ((), true, [])
    RoundTrips (relayUpstreamBencode m)
      (parse RouterContact.plainHost RouterContact.zeroMemory handle) p
      (Dispatches handle p (· = .relayUpstream m)) := by
  intro m p handle
  exact ((messages_round_trip RouterContact.plainHost_lawful RouterContact.zeroMemory handle p).1 m
    (List.cons_ne_nil _ _) (by decide)).1

/-! ### Longer payloads -/

namespace Buffer

variable {b : Buffer} {s t data : Bytes} {c : UInt8}

lemma Holds.readUntil_full {delim : UInt8} (h : b.Holds s) (hs : delim ∉ s) :
    b.readUntil delim s.length = (s, b.skip s.length) := by
  induction s generalizing b with
  | nil => rfl
  | cons c s ih =>
      have hc : c ≠ delim := fun heq => hs (heq ▸ List.mem_cons_self)
      rw [List.length_cons, Buffer.readUntil, if_neg (not_or.mpr ⟨h.peek ▸ hc, h.lt.ne⟩),
        ih h.tail fun hmem => hs (List.mem_cons_of_mem c hmem), skip_skip, Nat.add_comm 1,
        Holds.peek h]

/-- Nine digits are the length, and the character behind them is skipped whatever it is. -/
lemma Holds.readString_nine (h : b.Holds (s ++ c :: data)) (hs : ascii ':' ∉ s)
    (hnine : s.length = 9) (hnum : strtol s = data.length) :
    b.readString = some (data, b.skip (s ++ c :: data).length) := by
  have hdata := h.right.tail
  rw [skip_skip] at hdata
  have hne : s ≠ [] := List.ne_nil_of_length_pos (hnine.symm ▸ Nat.succ_pos 8)
  have hread : b.readNumber (ascii ':') 9 = some (s, b.skip s.length) := by
    rw [Buffer.readNumber, ← hnine, h.left.readUntil_full hs]
    exact if_neg (not_or.mpr ⟨hne, h.right.sizeLeft_ne_zero⟩)
  have hpos : ¬ (data.length : ℤ) < 0 := not_lt.mpr (Int.natCast_nonneg _)
  rw [Buffer.readString, hread]
  simp only [hnum, skip_skip, Int.toNat_natCast]
  rw [if_neg hpos, if_neg (not_lt.mpr hdata.length_le), hdata.bytes, List.length_append,
    List.length_cons, Nat.add_assoc, Nat.add_comm 1]

end Buffer

/-- A payload of `n` bytes that all end a dictionary. -/
def endings (n : ℕ) : Bytes := List.replicate n (ascii 'e')

lemma endings_length (n : ℕ) : (endings n).length = n := List.length_replicate

/-- What stands for a payload of `10 ^ 9` bytes is read as a payload of `10 ^ 8` bytes. -/
lemma strBytes_endings : strBytes (endings (10 ^ 9)) =
    (decimal (10 ^ 8) ++ 48 :: (ascii ':' :: endings (10 ^ 8 - 1))) ++
      ([ascii 'e'] ++ endings (9 * 10 ^ 8)) := by
  have hlong : decimal (10 ^ 9) = decimal (10 ^ 8) ++ [48] := by decide +kernel
  have hsplit : endings (10 ^ 9) =
      endings (10 ^ 8 - 1) ++ ([ascii 'e'] ++ endings (9 * 10 ^ 8)) := by
    rw [endings, endings, endings, List.singleton_append, ← List.replicate_succ,
      List.replicate_append_replicate]
    norm_num
  rw [strBytes, hsplit]
  have hlen : (endings (10 ^ 8 - 1) ++ ([ascii 'e'] ++ endings (9 * 10 ^ 8))).length = 10 ^ 9 := by
    rw [← hsplit, endings_length]
  rw [hlen, hlong]
  simp only [List.append_assoc, List.cons_append, List.nil_append]

/-- A message with that payload. -/
def longRelay : RelayMessage :=
  { remote := zeroBlob 32, pathid := zeroBlob 16, X := endings (10 ^ 9), Y := zeroBlob 32 }

lemma longRelay_X : longRelay.X = endings (10 ^ 9) := rfl

/-- The payload that is read. -/
def misread : Bytes := ascii ':' :: endings (10 ^ 8 - 1)

section Misread

variable {ρ : Type}

/-- The parser stops inside of the payload, with a whole message. -/
lemma ends_longRelay (lib : HostLib) (u : Uninit) (handle : Handler ρ)
    (p : InboundMessageParser ρ) : Ends (parse lib u handle) p
    ([ascii 'd'] ++ (entryBytes 'a' (strBytes [ascii 'u']) ++
      (entryBytes 'p' (strBytes longRelay.pathid.1) ++ (versionBytes ++
        (entryBytes 'x' (decimal (10 ^ 8) ++ 48 :: misread) ++ [ascii 'e'])))))
    (Dispatches handle p fun msg =>
      ∃ m : RelayMessage, msg = .relayUpstream m ∧ m.X = misread) := by
  have hC : ∀ key m, decodeKey lib u key (.relayUpstream m) = .part (fun _ => m)
      (fun (p : InboundMessageParser ρ) m => { p with msg := some (.relayUpstream m) })
      (RelayMessage.decodeKey key) := fun _ _ => rfl
  have hstring (x : Bytes) :
      Reads encryptedBdecode x (decimal (10 ^ 8) ++ 48 :: misread) (· = misread) := by
    have hlen : misread.length = 10 ^ 8 := by
      rw [misread, List.length_cons, endings_length]
      norm_num
    intro b hb
    refine ⟨misread, ?_, rfl⟩
    rw [encryptedBdecode, Reader.string, hb.readString_nine (by decide +kernel) (by decide +kernel)
      (by rw [hlen]; exact strtol_decimal (by norm_num))]
    rfl
  exact ends_readDict <| .entry (reads_type (p := p) (by norm_num) rfl) <|
    .entry (reads_part_eq hC (RelayMessage.reads_pathid _ _)) <|
    .entry (reads_part_eq hC (RelayMessage.reads_version _)) <|
    .entry (reads_part_eq hC (RelayMessage.reads_X (hstring _))) <|
    .nil <| ends_dispatch ⟨_, rfl, rfl⟩

/-- The encoding goes on behind the message that is read. -/
lemma encoding_longRelay : ∃ rest, longRelay.encoding 'u' =
    [ascii 'd'] ++ (entryBytes 'a' (strBytes [ascii 'u']) ++
      (entryBytes 'p' (strBytes longRelay.pathid.1) ++ (versionBytes ++
        (entryBytes 'x' (decimal (10 ^ 8) ++ 48 :: misread) ++ [ascii 'e'])))) ++ rest := by
  refine ⟨endings (9 * 10 ^ 8) ++ (entryBytes 'y' (strBytes longRelay.Y.1) ++ [ascii 'e']), ?_⟩
  rw [RelayMessage.encoding, longRelay_X, entryBytes.eq_1 'x',
    strBytes_endings, entryBytes.eq_1 'x', misread]
  simp only [List.append_assoc]

/-- The length of a payload has nine digits at most. -/
theorem long_payload_misread : ¬ ∀ (ρ : Type) (lib : HostLib) (u : Uninit) (handle : Handler ρ)
    (p : InboundMessageParser ρ), lib.Lawful → ∀ m : RelayMessage, m.X ≠ [] →
      RoundTrips (relayUpstreamBencode m) (parse lib u handle) p
        (Dispatches handle p (· = .relayUpstream { m with remote := p.remoteRouter.pubkey })) := by
  intro h
  let p : InboundMessageParser Unit :=
    { firstkey := true, msg := none, remoteRouter := {}, router := () }
  let handle : Handler Unit := fun _ _ => ((), true, [])
  let lib := RouterContact.plainHost
  let u := RouterContact.zeroMemory
  obtain ⟨rest, hrest⟩ := encoding_longRelay
  have hsure := longRelay.sure_bencode 'u'
  let b := RouterContact.stackBuffer (fun _ => 0) (longRelay.encoding 'u').length
  have hinside : b.Inside := Nat.zero_le _
  have hsuccess : (relayUpstreamBencode longRelay b).2 = true :=
    (hsure.fits_iff b hinside).mpr (Nat.sub_zero _).ge
  have hX : longRelay.X ≠ [] := by
    refine List.ne_nil_of_length_pos ?_
    rw [longRelay_X, endings_length]
    norm_num
  obtain ⟨s, hwrote, hends⟩ := h Unit lib u handle p RouterContact.plainHost_lawful longRelay hX b
    hinside hsuccess
  obtain rfl : s = longRelay.encoding 'u' :=
    List.append_cancel_left (hwrote.written.symm.trans (hsure.wrote b hinside hsuccess).written)
  -- both readings of the same bytes come to a message
  have hholds := Buffer.holds_ofBytes (longRelay.encoding 'u') fun _ => 0
  obtain ⟨p₁, _, hr₁, _, rfl, hwhole, -⟩ := hends _ hholds
  rw [hrest] at hholds
  obtain ⟨p₂, _, hr₂, _, ⟨m, rfl, hm⟩, hpart, -⟩ := ends_longRelay lib u handle p _
    hholds.left
  rw [← hrest, hr₁] at hr₂
  obtain rfl : p₁ = p₂ := congrArg Prod.fst hr₂
  have hsame := LinkMsg.relayUpstream.inj
    (List.singleton_inj.mp (List.append_cancel_left (hwhole.symm.trans hpart)))
  have hlen : longRelay.X.length = misread.length := by rw [← hm, ← hsame]
  rw [longRelay_X, misread, List.length_cons, endings_length, endings_length] at hlen
  norm_num at hlen

end Misread

end Udap
