import Udap.RouterContact
import Udap.Bencode.Reads
import Mathlib.Data.List.TakeWhile

/-!
The codec of router contacts, at every capacity.

* `sure_bencode`: `udap_rc_bencode` reports success if and only if the contact fits. An entry of
  the address or exit list that does not fit is dropped, but what follows the list is longer than
  the room that is then left.
* `reads_bdecode`: `udap_rc_bdecode` of these bytes gives the same contact; lists that the contact
  lacks stay what they were.
-/

namespace Udap

open ByteMem

/-- What the documentation says of `inet_ntop` and `inet_pton`: a text of less than
`INET6_ADDRSTRLEN` characters that reads back. -/
structure HostLib.Lawful (lib : HostLib) : Prop where
  text : ∀ ip, ∃ text, lib.inetNtop ip = some text ∧ text.length < 46 ∧ 0 ∉ text ∧
    lib.inetPton text = some ip

/-- The text of an address. -/
def HostLib.textOf (lib : HostLib) (ip : Blob 16) : Bytes := (lib.inetNtop ip).getD []

lemma cString_of_not_mem {s : Bytes} (h : 0 ∉ s) : cString s = s := by
  refine List.takeWhile_eq_self_iff.mpr fun c hc => bne_iff_ne.mpr fun heq => h ?_
  rwa [← heq]

lemma not_mem_cString (s : Bytes) : 0 ∉ cString s := by
  intro h
  have hne := List.mem_takeWhile_imp (p := fun c : UInt8 => c != 0) h
  cases hne

/-- A string that ends in its array. -/
lemma cString_length_lt {s : Bytes} (h : 0 ∈ s) : (cString s).length < s.length := by
  refine lt_of_le_of_ne (List.takeWhile_prefix _).length_le fun hlen => ?_
  have heq : cString s = s := (List.takeWhile_prefix _).eq_of_length hlen
  rw [← heq] at h
  exact not_mem_cString s h

section Addresses

variable {lib : HostLib} {k : ℕ}

lemma HostLib.Lawful.textOf (h : lib.Lawful) (ip : Blob 16) :
    lib.inetNtop ip = some (lib.textOf ip) ∧ (lib.textOf ip).length < 46 ∧ 0 ∉ lib.textOf ip ∧
      lib.inetPton (lib.textOf ip) = some ip := by
  obtain ⟨text, hntop, hlen, hzero, hpton⟩ := h.text ip
  have htext : lib.textOf ip = text := by rw [HostLib.textOf, hntop, Option.getD_some]
  rw [htext]
  exact ⟨hntop, hlen, hzero, hpton⟩

lemma writeAddress_eq (h : lib.Lawful) (key : Char) (ip : Blob 16) :
    writeAddress lib key ip = .all [writeKey key, writeBytestring (lib.textOf ip)] := by
  obtain ⟨hntop, -, hzero, -⟩ := h.textOf ip
  rw [writeAddress, hntop]
  simp only [cString_of_not_mem hzero]

lemma emits_writeAddress (h : lib.Lawful) (key : Char) (ip : Blob 16) :
    Emits 0 (writeAddress lib key ip) (entryBytes key (strBytes (lib.textOf ip))) := by
  have hemits := Emits.cons (emits_writeKey key)
    (.cons (emits_writeBytestring (lib.textOf ip)) .nil)
  rwa [List.append_nil, ← writeAddress_eq h] at hemits

/-- A short byte string stalls with little room. -/
lemma stalls_short {data : Bytes} (h : data.length ≤ 46) : Stalls 45 (writeBytestring data) :=
  stalls_writeBytestring h
    ((decimal_length_le (k := 2) (by norm_num) (by omega)).trans (by norm_num))

lemma stalls_writeUint16 (i : UInt16) : Stalls 45 (writeUint16 i) := by
  have hlt : i.toNat < 10 ^ 5 := i.toNat_lt.trans (by norm_num)
  have hlen : (decimalInt i.toNat).length ≤ 6 := decimalInt_length_le (by norm_num) (by omega)
  exact stalls_writeInt (by omega)

lemma stalls_writeAddress (h : lib.Lawful) (key : Char) (ip : Blob 16) :
    Stalls 45 (writeAddress lib key ip) := by
  rw [writeAddress_eq h]
  exact .entry key (by norm_num) (stalls_short (h.textOf ip).2.1.le) (Stalls.nil.mono (by norm_num))

/-- The use of an address text. -/
lemma pton_cString (h : lib.Lawful) (ip : Blob 16) :
    lib.inetPton (cString (lib.textOf ip)) = some ip := by
  rw [cString_of_not_mem (h.textOf ip).2.2.1]
  exact (h.textOf ip).2.2.2

end Addresses

/-! ### Address entries -/

namespace AddressInfo

variable {lib : HostLib} {ai ai' : AddressInfo}

/-- What the decoder accepts of an address entry. -/
structure WellFormed (ai : AddressInfo) : Prop where
  rank : ai.rank ≠ 0
  port : ai.port ≠ 0
  dialect : 0 ∈ ai.dialect.1

/-- The same entry, with the dialects compared as strings. -/
structure Same (ai ai' : AddressInfo) : Prop where
  rank : ai'.rank = ai.rank
  dialect : cString ai'.dialect.1 = cString ai.dialect.1
  encKey : ai'.encKey = ai.encKey
  ip : ai'.ip = ai.ip
  port : ai'.port = ai.port

/-- `udap_ai_bencode` in full. -/
def encoding (lib : HostLib) (ai : AddressInfo) : Bytes :=
  [ascii 'd'] ++ (entryBytes 'c' (intBytes ai.rank.toNat) ++
    (entryBytes 'd' (strBytes (cString ai.dialect.1)) ++
      (entryBytes 'e' (strBytes ai.encKey.1) ++
        (entryBytes 'i' (strBytes (lib.textOf ai.ip)) ++
          (entryBytes 'p' (intBytes ai.port.toNat) ++ (versionBytes ++ [ascii 'e']))))))

lemma sure_bencode (h : lib.Lawful) (ai : AddressInfo) : Sure (ai.bencode lib) (ai.encoding lib) :=
  .cons (emits_bufferWrite _) <| .entry 'c' (emits_writeInt _) <|
    .entry 'd' (emits_writeBytestring _) <| .entry 'e' (emits_writeBytestring _) <|
    .cons (emits_writeAddress h 'i' ai.ip) <| .entry 'p' (emits_writeInt _) <|
    .cons emits_writeVersionEntry sure_bencodeEnd

lemma stalls_bencode (h : lib.Lawful) (ai : AddressInfo) : Stalls 45 (ai.bencode lib) := by
  have hdialect : (cString ai.dialect.1).length ≤ 46 :=
    (List.takeWhile_prefix _).length_le.trans (by rw [ai.dialect.2]; norm_num)
  have hkey : ai.encKey.1.length ≤ 46 := by
    rw [ai.encKey.2]
    norm_num
  exact .cons (stalls_bufferWrite (by simp)) <| .entry 'c' (by norm_num) (stalls_writeUint16 _) <|
    .entry 'd' (by norm_num) (stalls_short hdialect) <|
    .entry 'e' (by norm_num) (stalls_short hkey) <| .cons (stalls_writeAddress h 'i' ai.ip) <|
    .entry 'p' (by norm_num) (stalls_writeUint16 _) <|
    .cons (stalls_writeVersionEntry (by norm_num)) <|
    .cons (stalls_bufferWrite (by simp)) (Stalls.nil.mono (by norm_num))

lemma encoding_congr (h : ai.Same ai') : ai'.encoding lib = ai.encoding lib := by
  rw [encoding, encoding, h.rank, h.dialect, h.encKey, h.ip, h.port]

lemma Same.refl (ai : AddressInfo) : ai.Same ai := ⟨rfl, rfl, rfl, rfl, rfl⟩

lemma checkedPort_of_ne_zero {i : UInt16} (h : i ≠ 0) :
    checkedPort (UInt64.ofNat i.toNat) = some i := by
  have hlt := i.toNat_lt
  have hpos : 0 < i.toNat := Nat.pos_of_ne_zero fun hzero => h (UInt16.toNat_inj.mp hzero)
  have hval : (UInt64.ofNat i.toNat).toNat = i.toNat :=
    UInt64.toNat_ofNat_of_lt' (hlt.trans (by norm_num))
  have hrange : ¬ (UInt64.ofNat i.toNat > 65536 ∨ UInt64.ofNat i.toNat ≤ 0) := by
    rintro (hbig | hzero)
    · have hbig := UInt64.lt_iff_toNat_lt.mp hbig
      rw [hval] at hbig
      exact absurd (hbig.trans hlt) (by decide)
    · have hzero := UInt64.le_iff_toNat_le.mp hzero
      rw [hval] at hzero
      exact absurd (hpos.trans_le hzero) (by decide)
  rw [checkedPort, if_neg hrange]
  congr 1
  refine UInt16.toNat_inj.mp ?_
  rw [UInt64.toNat_toUInt16, hval]
  exact Nat.mod_eq_of_lt hlt

lemma cString_append_zero (s rest : Bytes) : cString (s ++ 0 :: rest) = cString s := by
  induction s with
  | nil => rfl
  | cons c s ih =>
      rw [cString] at ih
      rw [List.cons_append, cString, cString, List.takeWhile_cons, List.takeWhile_cons, ih, cString]

/-- A string that was copied into an array with its terminator; the rest of the array does not
show. -/
lemma cString_stored {old str : Bytes} {n : ℕ} (hold : old.length = n) (hlen : str.length < n) :
    cString (slice (memcpy old 0 (str ++ [0])) 0 n) = cString str := by
  have hform : memcpy old 0 (str ++ [0]) = str ++ 0 :: old.drop (str.length + 1) := by
    rw [memcpy, List.take_zero, List.nil_append, List.append_assoc, List.length_append,
      List.length_singleton, Nat.zero_add]
    rfl
  have hslice : slice (str ++ 0 :: old.drop (str.length + 1)) 0 n =
      str ++ 0 :: old.drop (str.length + 1) := by
    have hlen : (str ++ 0 :: old.drop (str.length + 1)).length = n := by
      simp only [List.length_append, List.length_cons, List.length_drop]
      omega
    have hhead := slice_head (c := []) hlen
    rwa [List.append_nil] at hhead
  rw [hform, hslice, cString_append_zero]

/-- Of these bytes the decoder makes the same entry, whatever the object was. -/
lemma reads_bdecode (h : lib.Lawful) (hai : ai.WellFormed) (ai₀ : AddressInfo) :
    Reads (bdecode lib) ai₀ (ai.encoding lib) ai.Same := by
  have hdialect : (cString ai.dialect.1).length < 6 :=
    (cString_length_lt hai.dialect).trans_eq ai.dialect.2
  have htext := (h.textOf ai.ip).2.1
  have hrank (a : AddressInfo) : Reads (decodeKey lib (some [ascii 'c'])) a
      (intBytes ai.rank.toNat) (· = { a with rank := ai.rank }) :=
    reads_integer_natCast (ai.rank.toNat_lt.trans (by norm_num))
      (by rw [checkedPort_of_ne_zero hai.rank]; rfl)
  have hstring (a : AddressInfo) : Reads (decodeKey lib (some [ascii 'd'])) a
      (strBytes (cString ai.dialect.1)) (· = { a with
        dialect := sliceBlob (memcpy a.dialect.1 0 (cString ai.dialect.1 ++ [0])) 0 6 }) :=
    reads_string (hdialect.trans (by norm_num)) (if_neg (not_le.mpr hdialect))
  have hkey (a : AddressInfo) : Reads (decodeKey lib (some [ascii 'e'])) a
      (strBytes ai.encKey.1) (· = { a with encKey := ai.encKey }) :=
    reads_blob (f := fun (a : AddressInfo) (k : PubKey) => { a with encKey := k }) ai.encKey
      (by norm_num)
  have hip (a : AddressInfo) : Reads (decodeKey lib (some [ascii 'i'])) a
      (strBytes (lib.textOf ai.ip)) (· = { a with ip := ai.ip }) :=
    reads_string (htext.trans (by norm_num))
      (by rw [if_neg (by omega), pton_cString h]; rfl)
  have hport (a : AddressInfo) : Reads (decodeKey lib (some [ascii 'p'])) a
      (intBytes ai.port.toNat) (· = { a with port := ai.port }) :=
    reads_integer_natCast (ai.port.toNat_lt.trans (by norm_num))
      (by rw [checkedPort_of_ne_zero hai.port]; rfl)
  refine reads_readDict <| .entry (hrank _) <| .entry (hstring _) <| .entry (hkey _) <|
    .entry (hip _) <| .entry (hport _) <| .entry reads_version <| .nil <| ends_nil (fun _ => rfl) ?_
  refine ⟨rfl, ?_, rfl, rfl, rfl⟩
  exact (cString_stored ai₀.dialect.2 hdialect).trans (cString_of_not_mem (not_mem_cString _))

lemma starts_encoding (lib : HostLib) (ai : AddressInfo) : Starts (ai.encoding lib) :=
  ⟨_, _, rfl, by decide⟩

end AddressInfo

/-! ### Exit entries -/

namespace ExitInfo

variable {lib : HostLib}

/-- `udap_xi_bencode` in full. -/
def encoding (lib : HostLib) (xi : ExitInfo) : Bytes :=
  [ascii 'd'] ++ (entryBytes 'a' (strBytes (lib.textOf xi.address)) ++
    (entryBytes 'b' (strBytes (lib.textOf xi.netmask)) ++
      (entryBytes 'k' (strBytes xi.pubkey.1) ++ (versionBytes ++ [ascii 'e']))))

lemma sure_bencode (h : lib.Lawful) (xi : ExitInfo) : Sure (xi.bencode lib) (xi.encoding lib) :=
  .cons (emits_bufferWrite _) <| .cons (emits_writeAddress h 'a' xi.address) <|
    .cons (emits_writeAddress h 'b' xi.netmask) <| .entry 'k' (emits_writeBytestring _) <|
    .cons emits_writeVersionEntry sure_bencodeEnd

lemma stalls_bencode (h : lib.Lawful) (xi : ExitInfo) : Stalls 45 (xi.bencode lib) := by
  have hkey : xi.pubkey.1.length ≤ 46 := by
    rw [xi.pubkey.2]
    norm_num
  exact .cons (stalls_bufferWrite (by simp)) <| .cons (stalls_writeAddress h 'a' xi.address) <|
    .cons (stalls_writeAddress h 'b' xi.netmask) <| .entry 'k' (by norm_num) (stalls_short hkey) <|
    .cons (stalls_writeVersionEntry (by norm_num)) <|
    .cons (stalls_bufferWrite (by simp)) (Stalls.nil.mono (by norm_num))

lemma reads_bdecode (h : lib.Lawful) (xi xi₀ : ExitInfo) :
    Reads (bdecode lib) xi₀ (xi.encoding lib) (xi = ·) := by
  have hlen := fun ip => (h.textOf ip).2.1
  have haddress (x : ExitInfo) : Reads (decodeDict lib (some [ascii 'a'])) x
      (strBytes (lib.textOf xi.address)) (· = { x with address := xi.address }) :=
    reads_string ((hlen _).trans (by norm_num))
      (by rw [if_neg (by have := hlen xi.address; omega), pton_cString h]; rfl)
  have hnetmask (x : ExitInfo) : Reads (decodeDict lib (some [ascii 'b'])) x
      (strBytes (lib.textOf xi.netmask)) (· = { x with netmask := xi.netmask }) :=
    reads_string ((hlen _).trans (by norm_num))
      (by rw [if_neg (by have := hlen xi.netmask; omega), pton_cString h]; rfl)
  have hkey (x : ExitInfo) : Reads (decodeDict lib (some [ascii 'k'])) x
      (strBytes xi.pubkey.1) (· = { x with pubkey := xi.pubkey }) :=
    reads_blob (f := fun (x : ExitInfo) (k : PubKey) => { x with pubkey := k }) xi.pubkey
      (by norm_num)
  exact reads_readDict <| .entry (haddress _) <| .entry (hnetmask _) <| .entry (hkey _) <|
    .entry reads_version <| .nil <| ends_nil (fun _ => rfl) rfl

lemma starts_encoding (lib : HostLib) (xi : ExitInfo) : Starts (xi.encoding lib) :=
  ⟨_, _, rfl, by decide⟩

end ExitInfo

/-! ### Lists -/

section Lists

variable {lib : HostLib} {u : Uninit} {α : Type} {encode : α → Writer} {bytes : α → Bytes}
  {l : List α} {k : ℕ}

/-- An iteration that stops in the middle reports success, and leaves little room. -/
lemma emits_iterateBencode (h : ∀ x, Sure (encode x) (bytes x)) (hk : ∀ x, Stalls k (encode x)) :
    Emits k (iterateBencode encode l) (l.map bytes).flatten where
  done b hb _ := by
    have hall := Emits.all_map (l := l) fun x _ => (h x).emits
    have hstall := Stalls.all_map (l := l) fun x _ => hk x
    change b.Wrote _ (Writer.all (l.map encode) b).1 ∨ b.Short k (Writer.all (l.map encode) b).1
    cases hw : (Writer.all (l.map encode) b).2 with
    | true => exact (hall.done b hb hw).imp_right fun hshort => hshort.mono (Nat.zero_le k)
    | false =>
        obtain ⟨hin, hsz⟩ := hstall.keeps b hb
        exact .inr ⟨hin, hsz, hstall.room b hb hw⟩
  fits b hb hs := by
    have hall := Emits.all_map (l := l) fun x _ => (h x).emits
    exact ⟨rfl, (hall.fits b hb hs).2⟩

lemma emits_list (h : ∀ x, Sure (encode x) (bytes x)) (hk : ∀ x, Stalls k (encode x)) :
    Emits k (.all [startList, iterateBencode encode l, bencodeEnd]) (listBytes (l.map bytes)) :=
  .cons ((emits_bufferWrite _).mono (Nat.zero_le k)) <| .cons (emits_iterateBencode h hk) <|
    sure_bencodeEnd.emits.mono (Nat.zero_le k)

lemma reads_aiListBdecode (h : lib.Lawful) {l : List AddressInfo} (hl : ∀ ai ∈ l, ai.WellFormed)
    (l₀ : List AddressInfo) :
    Reads (aiListBdecode lib u) l₀ (listBytes (l.map (AddressInfo.encoding lib)))
      fun l' => ∃ l₁, List.Forall₂ AddressInfo.Same l l₁ ∧ l' = l₀ ++ l₁ := by
  refine reads_readList (fun ai hai => ⟨ai.starts_encoding lib, fun l₁ b hb => ?_⟩)
    (fun l₁ b _ => ⟨l₁, rfl, rfl⟩)
  obtain ⟨ai', hr, hsame⟩ := AddressInfo.reads_bdecode h (hl ai hai) (u.ai b.cur) b hb
  refine ⟨l₁ ++ [ai'], ?_, ai', hsame, rfl⟩
  simp only [if_true, hr]

lemma reads_xiListBdecode (h : lib.Lawful) (l l₀ : List ExitInfo) :
    Reads (xiListBdecode lib) l₀ (listBytes (l.map (ExitInfo.encoding lib))) (· = l₀ ++ l) := by
  refine (reads_bencodeReadList fun xi _ =>
    ⟨xi.starts_encoding lib, ExitInfo.reads_bdecode h xi {}⟩).imp ?_
  rintro l' ⟨l₁, hl₁, rfl⟩
  have heq : l = l₁ := by rwa [List.forall₂_eq_eq_eq] at hl₁
  rw [heq]

end Lists

/-! ### Router contacts -/

namespace RouterContact

variable {lib : HostLib} {u : Uninit} {rc rc' : RouterContact}

/-- The address entries are such as the decoder accepts. -/
def WellFormed (rc : RouterContact) : Prop := ∀ l, rc.addrs = some l → ∀ ai ∈ l, ai.WellFormed

/-- The same contact, with the dialects compared as strings. -/
structure Same (rc rc' : RouterContact) : Prop where
  addrs : Option.Rel (List.Forall₂ AddressInfo.Same) rc.addrs rc'.addrs
  enckey : rc'.enckey = rc.enckey
  pubkey : rc'.pubkey = rc.pubkey
  exits : rc'.exits = rc.exits
  signature : rc'.signature = rc.signature
  lastUpdated : rc'.lastUpdated = rc.lastUpdated

/-- A contact decoded over `old`: lists that it lacks stay what they were. -/
def decodedOver (rc old : RouterContact) : RouterContact :=
  { rc with addrs := rc.addrs.or old.addrs, exits := rc.exits.or old.exits }

lemma decodedOver_empty (rc : RouterContact) : rc.decodedOver {} = rc := by
  rw [decodedOver, Option.or_none, Option.or_none]

/-- A list that may be absent. -/
def optionalBytes {α : Type} (key : Char) (bytes : α → Bytes) : Option (List α) → Bytes
  | none => []
  | some l => entryBytes key (listBytes (l.map bytes))

/-- `udap_rc_bencode` in full. -/
def encoding (lib : HostLib) (rc : RouterContact) : Bytes :=
  [ascii 'd'] ++ (optionalBytes 'a' (AddressInfo.encoding lib) rc.addrs ++
    (entryBytes 'k' (strBytes rc.pubkey.1) ++ (entryBytes 'p' (strBytes rc.enckey.1) ++
      (entryBytes 'u' (intBytes rc.lastUpdated.toInt64.toInt) ++ (versionBytes ++
        (optionalBytes 'x' (ExitInfo.encoding lib) rc.exits ++
          (entryBytes 'z' (strBytes rc.signature.1) ++ [ascii 'e'])))))))

lemma sure_writeOptional {α : Type} (key : Char) {encode : List α → Writer} {bytes : α → Bytes}
    {ws : List Writer} {t : Bytes} (hlist : ∀ l, Emits 45 (encode l) (listBytes (l.map bytes)))
    (h : Sure (.all ws) t) (ht : 45 < t.length) (o : Option (List α)) :
    Sure (.all (writeOptional key encode o ++ ws)) (optionalBytes key bytes o ++ t) := by
  cases o with
  | none => exact h
  | some l => exact .entry_short key (hlist l) h ht

/-- Success means that all of the contact is there. -/
lemma sure_bencode (h : lib.Lawful) (rc : RouterContact) :
    Sure (rc.bencode lib) (rc.encoding lib) := by
  have hsig : Sure (.all [writeKey 'z', writeBytestring rc.signature.1, bencodeEnd])
      (entryBytes 'z' (strBytes rc.signature.1) ++ [ascii 'e']) :=
    .entry 'z' (emits_writeBytestring _) sure_bencodeEnd
  have hsiglen : 45 < (entryBytes 'z' (strBytes rc.signature.1) ++ [ascii 'e']).length := by
    have hlen : rc.signature.1.length = 64 := rc.signature.2
    simp only [entryBytes, strBytes, List.length_append, hlen]
    omega
  have hexits := sure_writeOptional 'x'
    (fun _ => emits_list (ExitInfo.sure_bencode h) (ExitInfo.stalls_bencode h)) hsig hsiglen
    rc.exits
  have hkeys := Sure.entry 'k' (emits_writeBytestring rc.pubkey.1) <|
    .entry 'p' (emits_writeBytestring rc.enckey.1) <|
    .entry 'u' (emits_writeUint64 rc.lastUpdated) <| .cons emits_writeVersionEntry hexits
  have hkeyslen := hsiglen.trans_le (show _ ≤ (entryBytes 'k' (strBytes rc.pubkey.1) ++
    (entryBytes 'p' (strBytes rc.enckey.1) ++
      (entryBytes 'u' (intBytes rc.lastUpdated.toInt64.toInt) ++ (versionBytes ++
        (optionalBytes 'x' (ExitInfo.encoding lib) rc.exits ++
          (entryBytes 'z' (strBytes rc.signature.1) ++ [ascii 'e'])))))).length by
    simp only [List.length_append]
    omega)
  have hall := Sure.cons (emits_bufferWrite [ascii 'd']) <| sure_writeOptional 'a'
    (fun _ => emits_list (AddressInfo.sure_bencode h) (AddressInfo.stalls_bencode h)) hkeys
    hkeyslen rc.addrs
  rw [bencode]
  simp only [List.append_assoc]
  exact hall

lemma starts_encoding (lib : HostLib) (rc : RouterContact) : Starts (rc.encoding lib) :=
  ⟨_, _, rfl, by decide⟩

lemma forall₂_same_refl (l : List AddressInfo) : List.Forall₂ AddressInfo.Same l l :=
  List.forall₂_same.mpr fun ai _ => .refl ai

lemma rel_same_refl (o : Option (List AddressInfo)) :
    Option.Rel (List.Forall₂ AddressInfo.Same) o o := by
  cases o with
  | none => exact .none
  | some l => exact .some (forall₂_same_refl l)

section Decoding

variable {t : Bytes} {E : RouterContact → Bool → Prop}

lemma readsEntries_addrs (h : lib.Lawful) {o : Option (List AddressInfo)}
    (ho : ∀ l, o = some l → ∀ ai ∈ l, ai.WellFormed) (rc₀ : RouterContact)
    (hrest : ∀ addrs, Option.Rel (List.Forall₂ AddressInfo.Same) (o.or rc₀.addrs) addrs →
      ReadsEntries (decodeDict lib u) { rc₀ with addrs := addrs } t E) :
    ReadsEntries (decodeDict lib u) rc₀
      (optionalBytes 'a' (AddressInfo.encoding lib) o ++ t) E := by
  cases o with
  | none => exact hrest rc₀.addrs (rel_same_refl _)
  | some l =>
      have hlist : Reads (decodeDict lib u (some [ascii 'a'])) rc₀
          (listBytes (l.map (AddressInfo.encoding lib)))
          fun rc₁ => ∃ l₁, (∃ l₂, List.Forall₂ AddressInfo.Same l l₂ ∧ l₁ = [] ++ l₂) ∧
            rc₁ = { rc₀ with addrs := some l₁ } :=
        Reads.part (g := fun _ => [])
          (f := fun (x : RouterContact) l => { x with addrs := some l })
          (reads_aiListBdecode h (ho l rfl) [])
      refine .cons hlist fun rc₁ hrc₁ => ?_
      obtain ⟨_, ⟨l₂, hsame, rfl⟩, rfl⟩ := hrc₁
      exact hrest _ (.some hsame)

lemma readsEntries_exits (h : lib.Lawful) (o : Option (List ExitInfo)) (rc₀ : RouterContact)
    (hrest : ReadsEntries (decodeDict lib u) { rc₀ with exits := o.or rc₀.exits } t E) :
    ReadsEntries (decodeDict lib u) rc₀ (optionalBytes 'x' (ExitInfo.encoding lib) o ++ t) E := by
  cases o with
  | none => exact hrest
  | some l =>
      have hlist : Reads (decodeDict lib u (some [ascii 'x'])) rc₀
          (listBytes (l.map (ExitInfo.encoding lib))) (· = { rc₀ with exits := some l }) :=
        Reads.part_eq (g := fun _ => [])
          (f := fun (x : RouterContact) l => { x with exits := some l })
          (reads_xiListBdecode h l [])
      exact .entry hlist hrest

/-- Of these bytes the decoder makes the same contact. -/
lemma reads_bdecode (h : lib.Lawful) (hrc : rc.WellFormed) (htime : rc.lastUpdated ≠ -1)
    (rc₀ : RouterContact) :
    Reads (bdecode lib u) rc₀ (rc.encoding lib) (rc.decodedOver rc₀).Same := by
  have hpubkey (x : RouterContact) : Reads (decodeDict lib u (some [ascii 'k'])) x
      (strBytes rc.pubkey.1) (· = { x with pubkey := rc.pubkey }) :=
    reads_blob (f := fun (x : RouterContact) (k : PubKey) => { x with pubkey := k }) rc.pubkey
      (by norm_num)
  have henckey (x : RouterContact) : Reads (decodeDict lib u (some [ascii 'p'])) x
      (strBytes rc.enckey.1) (· = { x with enckey := rc.enckey }) :=
    reads_blob (f := fun (x : RouterContact) (k : PubKey) => { x with enckey := k }) rc.enckey
      (by norm_num)
  have hupdated (x : RouterContact) : Reads (decodeDict lib u (some [ascii 'u'])) x
      (intBytes rc.lastUpdated.toInt64.toInt) (· = { x with lastUpdated := rc.lastUpdated }) :=
    Reads.part_eq (g := fun x : RouterContact => x.lastUpdated)
      (f := fun (x : RouterContact) t => { x with lastUpdated := t }) (reads_readInteger htime)
  have hsig (x : RouterContact) : Reads (decodeDict lib u (some [ascii 'z'])) x
      (strBytes rc.signature.1) (· = { x with signature := rc.signature }) :=
    reads_blob (f := fun (x : RouterContact) (s : Blob 64) => { x with signature := s })
      rc.signature (by norm_num)
  refine reads_readDict <| readsEntries_addrs h hrc rc₀ fun addrs haddrs => ?_
  exact .entry (hpubkey _) <| .entry (henckey _) <| .entry (hupdated _) <| .entry reads_version <|
    readsEntries_exits h rc.exits _ <| .entry (hsig _) <|
    .nil <| ends_nil (fun _ => rfl) ⟨haddrs, rfl, rfl, rfl, rfl, rfl⟩

end Decoding

end RouterContact

end Udap
