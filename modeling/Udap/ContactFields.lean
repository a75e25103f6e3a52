import Udap.Bencode.Fields
import Udap.ContactSignature

/-!
What a decoded contact owes to the bytes it was decoded from.

* `AddressInfo.Read`, `ExitInfo.Read`, `RouterContact.Read`: field by field, what an accepted
  dictionary leaves.
* `RouterContact.Determined`: the lists and keys of a contact are set by the bytes, each field of
  each of their entries is, and the memory that nobody has initialised does not show.
* `RouterContact.determined_iff`: this holds of an accepted contact if and only if all the keys
  occur.
-/

namespace Udap

open ByteMem

/-! ### Values -/

/-- The string of an entry. -/
def readText (limit : ℕ) (b : Buffer) : Option Bytes :=
  b.readString.bind fun r => if r.1.length ≥ limit then none else some r.1

/-- The blob of an entry. -/
def readBlob (n : ℕ) (b : Buffer) : Option (Blob n) :=
  b.readString.bind fun r => if r.1.length = n then some (sliceBlob r.1 0 n) else none

/-- The address of an entry. -/
def readIP (lib : HostLib) (b : Buffer) : Option (Blob 16) :=
  (readText 128 b).bind fun text => lib.inetPton (cString text)

/-- The dialect of an entry. -/
def readDialect (b : Buffer) : Option Bytes := (readText 6 b).map cString

/-- The rank or the port of an entry. -/
def readPort (b : Buffer) : Option UInt16 :=
  (b.readInteger 0).2.bind fun _ => AddressInfo.checkedPort (b.readInteger 0).1

/-- What a decoder makes of an object, if it accepts. -/
def Reader.value {α : Type} (r : Reader α) (a : α) (b : Buffer) : Option α :=
  (r a b).2.map fun _ => (r a b).1

section Values

variable {α : Type} {a a' : α} {b b' : Buffer}

lemma Reader.value_eq {r : Reader α} (h : r a b = (a', some b')) : r.value a b = some a' := by
  rw [Reader.value, h]
  rfl

lemma readBlob_of_blob {n : ℕ} {f : α → Blob n → α} (h : Reader.blob n f a b = (a', some b')) :
    ∃ x, readBlob n b = some x ∧ a' = f a x := by
  obtain ⟨str, hs, hf⟩ := Reader.string_inv h
  split_ifs at hf with hlen
  refine ⟨sliceBlob str 0 n, ?_, (Option.some.inj hf).symm⟩
  rw [readBlob, hs, Option.bind_some, if_pos hlen]

lemma readPort_of_integer {f : α → UInt16 → α}
    (h : Reader.integer (fun a i => (AddressInfo.checkedPort i).map (f a)) a b = (a', some b')) :
    ∃ x, readPort b = some x ∧ a' = f a x := by
  rw [Reader.integer] at h
  cases hr : b.readInteger 0 with
  | mk i ob =>
      cases ob with
      | none => simp [hr] at h
      | some b₁ =>
          cases hport : AddressInfo.checkedPort i with
          | none => simp [hr, hport] at h
          | some x =>
              simp only [hr, hport, Option.map_some, Prod.mk.injEq] at h
              exact ⟨x, by rw [readPort, hr, Option.bind_some, hport], h.1.symm⟩

lemma readIP_of_string {lib : HostLib} {f : α → Blob 16 → α}
    (h : Reader.string (fun a str => if str.length ≥ 128 then none
      else (lib.inetPton (cString str)).map (f a)) a b = (a', some b')) :
    ∃ x, readIP lib b = some x ∧ a' = f a x := by
  obtain ⟨str, hs, hf⟩ := Reader.string_inv h
  split_ifs at hf with hlen
  obtain ⟨x, hx, rfl⟩ := Option.map_eq_some_iff.mp hf
  exact ⟨x, by rw [readIP, readText, hs, Option.bind_some, if_neg hlen, Option.bind_some, hx], rfl⟩

lemma readDialect_of_string {f : α → Bytes → α}
    (h : Reader.string (fun a str => if str.length ≥ 6 then none else some (f a str)) a b =
      (a', some b')) :
    ∃ str, str.length < 6 ∧ readDialect b = some (cString str) ∧ a' = f a str := by
  obtain ⟨str, hs, hf⟩ := Reader.string_inv h
  split_ifs at hf with hlen
  refine ⟨str, not_le.mp hlen, ?_, (Option.some.inj hf).symm⟩
  rw [readDialect, readText, hs, Option.bind_some, if_neg hlen]
  rfl

end Values

/-! ### Address entries -/

namespace AddressInfo

/-- What an accepted dictionary leaves in each field. -/
structure Read (lib : HostLib) (es : List Entry) (before ai : AddressInfo) : Prop where
  rank : Says 'c' es readPort before.rank ai.rank
  dialect : Says 'd' es readDialect (cString before.dialect.1) (cString ai.dialect.1)
  encKey : Says 'e' es (readBlob 32) before.encKey ai.encKey
  ip : Says 'i' es (readIP lib) before.ip ai.ip
  port : Says 'p' es readPort before.port ai.port

variable {lib : HostLib} {es : List Entry} {before ai ai' : AddressInfo} {key : Bytes}
  {b b' : Buffer}

lemma Read.entry (h : Read lib es before ai)
    (hk : decodeKey lib (some key) ai b = (ai', some b')) :
    Read lib (es ++ [⟨key, b⟩]) before ai' := by
  obtain ⟨hrank, hdialect, hencKey, hip, hport⟩ := h
  rw [decodeKey] at hk
  split_ifs at hk with hc hd he hi hp hv
  · obtain ⟨x, hx, rfl⟩ := readPort_of_integer hk
    exact ⟨.entry hc hx _, hdialect.other hc (by decide), hencKey.other hc (by decide),
      hip.other hc (by decide), hport.other hc (by decide)⟩
  · obtain ⟨str, hlen, hx, rfl⟩ := readDialect_of_string hk
    refine ⟨hrank.other hd (by decide), .entry hd ?_ _, hencKey.other hd (by decide),
      hip.other hd (by decide), hport.other hd (by decide)⟩
    exact hx.trans (congrArg some (cString_stored ai.dialect.2 hlen).symm)
  · obtain ⟨x, hx, rfl⟩ := readBlob_of_blob hk
    exact ⟨hrank.other he (by decide), hdialect.other he (by decide), .entry he hx _,
      hip.other he (by decide), hport.other he (by decide)⟩
  · obtain ⟨x, hx, rfl⟩ := readIP_of_string hk
    exact ⟨hrank.other hi (by decide), hdialect.other hi (by decide),
      hencKey.other hi (by decide), .entry hi hx _, hport.other hi (by decide)⟩
  · obtain ⟨x, hx, rfl⟩ := readPort_of_integer hk
    exact ⟨hrank.other hp (by decide), hdialect.other hp (by decide),
      hencKey.other hp (by decide), hip.other hp (by decide), .entry hp hx _⟩
  · obtain rfl := Reader.version_inv hk
    exact ⟨hrank.other hv (by decide), hdialect.other hv (by decide),
      hencKey.other hv (by decide), hip.other hv (by decide), hport.other hv (by decide)⟩
  · cases hk

/-- The entries of an address. -/
def entries (lib : HostLib) (ai : AddressInfo) (b : Buffer) : List Entry :=
  readEntries (decodeKey lib) ai b

lemma read_of_bdecode (h : bdecode lib before b = (ai, some b')) :
    Read lib (entries lib before b) before ai :=
  readDict_entries_rule (I := fun es x => Read lib es before x)
    (fun _ _ _ _ _ _ hI hk => hI.entry hk)
    (fun _ _ _ hI => hI) ⟨says_nil .., says_nil .., says_nil .., says_nil .., says_nil ..⟩ h

/-- Decoders of an address read the same bytes whatever the object was. -/
lemma alike_decodeKey (lib : HostLib) (key : Option Bytes) :
    Alike (decodeKey lib key) (decodeKey lib key) := by
  cases key with
  | none => exact fun _ _ _ => rfl
  | some key =>
      rw [decodeKey]
      split_ifs
      · exact alike_integer fun _ _ _ => by simp
      · exact alike_string fun _ _ _ => by split_ifs <;> rfl
      · exact alike_blob
      · exact alike_string fun _ _ _ => by split_ifs <;> simp
      · exact alike_integer fun _ _ _ => by simp
      · exact alike_version
      · exact alike_bad

/-- All keys of an address occur. -/
def HasKeys (es : List Entry) : Prop :=
  ∀ c ∈ ['c', 'd', 'e', 'i', 'p'], ∃ e ∈ es, isKey e.key c = true

/-- Each field of an address is what an entry says. -/
structure SetBy (lib : HostLib) (es : List Entry) (ai : AddressInfo) : Prop where
  rank : FromInput 'c' es readPort ai.rank
  dialect : FromInput 'd' es readDialect (cString ai.dialect.1)
  encKey : FromInput 'e' es (readBlob 32) ai.encKey
  ip : FromInput 'i' es (readIP lib) ai.ip
  port : FromInput 'p' es readPort ai.port

lemma SetBy.hasKeys (h : SetBy lib es ai) : HasKeys es := by
  simp only [HasKeys, List.forall_mem_cons, List.not_mem_nil, false_imp_iff, implies_true,
    and_true]
  exact ⟨h.rank.hasKey, h.dialect.hasKey, h.encKey.hasKey, h.ip.hasKey, h.port.hasKey⟩

lemma Read.setBy (h : Read lib es before ai) (hkeys : HasKeys es) : SetBy lib es ai where
  rank := h.rank.fromInput (hkeys 'c' (by simp))
  dialect := h.dialect.fromInput (hkeys 'd' (by simp))
  encKey := h.encKey.fromInput (hkeys 'e' (by simp))
  ip := h.ip.fromInput (hkeys 'i' (by simp))
  port := h.port.fromInput (hkeys 'p' (by simp))

/-- With all keys it does not matter what the object was. -/
lemma Read.same {before' : AddressInfo} (h : Read lib es before ai) (h' : Read lib es before' ai')
    (hkeys : HasKeys es) : ai.Same ai' where
  rank := h'.rank.eq_of_key h.rank (hkeys 'c' (by simp))
  dialect := h'.dialect.eq_of_key h.dialect (hkeys 'd' (by simp))
  encKey := h'.encKey.eq_of_key h.encKey (hkeys 'e' (by simp))
  ip := h'.ip.eq_of_key h.ip (hkeys 'i' (by simp))
  port := h'.port.eq_of_key h.port (hkeys 'p' (by simp))

end AddressInfo

/-! ### Exit entries -/

namespace ExitInfo

/-- What an accepted dictionary leaves in each field. -/
structure Read (lib : HostLib) (es : List Entry) (before xi : ExitInfo) : Prop where
  address : Says 'a' es (readIP lib) before.address xi.address
  netmask : Says 'b' es (readIP lib) before.netmask xi.netmask
  pubkey : Says 'k' es (readBlob 32) before.pubkey xi.pubkey

variable {lib : HostLib} {es : List Entry} {before xi xi' : ExitInfo} {key : Bytes} {b b' : Buffer}

lemma Read.entry (h : Read lib es before xi)
    (hk : decodeDict lib (some key) xi b = (xi', some b')) :
    Read lib (es ++ [⟨key, b⟩]) before xi' := by
  obtain ⟨haddress, hnetmask, hpubkey⟩ := h
  rw [decodeDict] at hk
  split_ifs at hk with ha hb hp hv
  · obtain ⟨x, hx, rfl⟩ := readIP_of_string hk
    exact ⟨.entry ha hx _, hnetmask.other ha (by decide), hpubkey.other ha (by decide)⟩
  · obtain ⟨x, hx, rfl⟩ := readIP_of_string hk
    exact ⟨haddress.other hb (by decide), .entry hb hx _, hpubkey.other hb (by decide)⟩
  · obtain ⟨x, hx, rfl⟩ := readBlob_of_blob hk
    exact ⟨haddress.other hp (by decide), hnetmask.other hp (by decide), .entry hp hx _⟩
  · obtain rfl := Reader.version_inv hk
    exact ⟨haddress.other hv (by decide), hnetmask.other hv (by decide),
      hpubkey.other hv (by decide)⟩
  · cases hk

/-- The entries of an exit. -/
def entries (lib : HostLib) (xi : ExitInfo) (b : Buffer) : List Entry :=
  readEntries (decodeDict lib) xi b

lemma read_of_bdecode (h : bdecode lib before b = (xi, some b')) :
    Read lib (entries lib before b) before xi :=
  readDict_entries_rule (I := fun es x => Read lib es before x)
    (fun _ _ _ _ _ _ hI hk => hI.entry hk)
    (fun _ _ _ hI => hI) ⟨says_nil .., says_nil .., says_nil ..⟩ h

/-- All keys of an exit occur. -/
def HasKeys (es : List Entry) : Prop := ∀ c ∈ ['a', 'b', 'k'], ∃ e ∈ es, isKey e.key c = true

/-- Each field of an exit is what an entry says. -/
structure SetBy (lib : HostLib) (es : List Entry) (xi : ExitInfo) : Prop where
  address : FromInput 'a' es (readIP lib) xi.address
  netmask : FromInput 'b' es (readIP lib) xi.netmask
  pubkey : FromInput 'k' es (readBlob 32) xi.pubkey

lemma SetBy.hasKeys (h : SetBy lib es xi) : HasKeys es := by
  simp only [HasKeys, List.forall_mem_cons, List.not_mem_nil, false_imp_iff, implies_true,
    and_true]
  exact ⟨h.address.hasKey, h.netmask.hasKey, h.pubkey.hasKey⟩

lemma Read.setBy (h : Read lib es before xi) (hkeys : HasKeys es) : SetBy lib es xi where
  address := h.address.fromInput (hkeys 'a' (by simp))
  netmask := h.netmask.fromInput (hkeys 'b' (by simp))
  pubkey := h.pubkey.fromInput (hkeys 'k' (by simp))

end ExitInfo

/-! ### Lists -/

section Lists

variable {lib : HostLib} {u u' : Uninit} {b b' : Buffer}

/-- `udap_ai_list_bdecode_item`. -/
def aiItem (lib : HostLib) (u : Uninit) (more : Bool) : Reader (List AddressInfo) := fun l b =>
  if more then
    match AddressInfo.bdecode lib (u.ai b.cur) b with
    | (_, none) => (l, none)
    | (ai, some b) => (l ++ [ai], some b)
  else (l, some b)

lemma aiListBdecode_eq : aiListBdecode lib u = readList (aiItem lib u) := rfl

/-- `udap_xi_list_decode_item`. -/
def xiItem (lib : HostLib) (more : Bool) : Reader (List ExitInfo) := fun l b =>
  if more then
    match ExitInfo.bdecode lib {} b with
    | (x, b) => (l ++ [x], b)
  else (l, some b)

lemma xiListBdecode_eq : xiListBdecode lib = readList (xiItem lib) := rfl

/-- The item is decoded to the address. -/
def AddressAt (lib : HostLib) (u : Uninit) (item : Buffer) (ai : AddressInfo) : Prop :=
  ∃ b', AddressInfo.bdecode lib (u.ai item.cur) item = (ai, some b')

/-- The item is decoded to the exit. -/
def ExitAt (lib : HostLib) (item : Buffer) (xi : ExitInfo) : Prop :=
  ∃ b', ExitInfo.bdecode lib {} item = (xi, some b')

lemma aiItem_spec {l l' : List AddressInfo} (h : aiItem lib u true l b = (l', some b')) :
    ∃ ai, l' = l ++ [ai] ∧ AddressAt lib u b ai := by
  simp only [aiItem, if_true] at h
  obtain ⟨ai, ob, hread⟩ : ∃ ai ob, AddressInfo.bdecode lib (u.ai b.cur) b = (ai, ob) :=
    ⟨_, _, rfl⟩
  cases ob with
  | none => simp [hread] at h
  | some b₁ =>
      simp only [hread, Prod.mk.injEq] at h
      exact ⟨ai, h.1.symm, b₁, hread⟩

lemma xiItem_spec {l l' : List ExitInfo} (h : xiItem lib true l b = (l', some b')) :
    ∃ xi, l' = l ++ [xi] ∧ ExitAt lib b xi := by
  simp only [xiItem, if_true] at h
  obtain ⟨xi, ob, hread⟩ : ∃ xi ob, ExitInfo.bdecode lib {} b = (xi, ob) := ⟨_, _, rfl⟩
  simp only [hread, Prod.mk.injEq] at h
  obtain ⟨rfl, rfl⟩ := h
  exact ⟨xi, rfl, b', hread⟩

lemma aiList_spec {l : List AddressInfo} (h : aiListBdecode lib u [] b = (l, some b')) :
    List.Forall₂ (AddressAt lib u) (readItems (aiItem lib u) [] b) l := by
  rw [aiListBdecode_eq] at h
  obtain ⟨xs, hl, hxs⟩ := readList_spec aiItem_spec (fun _ _ => rfl) h
  rwa [hl, List.nil_append]

lemma xiList_spec {l : List ExitInfo} (h : xiListBdecode lib [] b = (l, some b')) :
    List.Forall₂ (ExitAt lib) (readItems (xiItem lib) [] b) l := by
  rw [xiListBdecode_eq] at h
  obtain ⟨xs, hl, hxs⟩ := readList_spec xiItem_spec (fun _ _ => rfl) h
  rwa [hl, List.nil_append]

/-- The items of an address list are read the same whatever is on the stack. -/
lemma alike_aiItem (lib : HostLib) (u u' : Uninit) (more : Bool) :
    Alike (aiItem lib u more) (aiItem lib u' more) := by
  intro l l' b
  cases more with
  | false => rfl
  | true =>
      have hdict := Alike.readDict (AddressInfo.alike_decodeKey lib)
      obtain ⟨x, x', ob, hx, hx'⟩ := hdict.outcome (u.ai b.cur) (u'.ai b.cur) b
      simp only [aiItem, if_true, AddressInfo.bdecode, hx, hx']
      cases ob <;> rfl

section Forall₂

variable {α β γ : Type} {R S : α → β → Prop} {R' : α → γ → Prop} {T : β → γ → Prop} {l : List α}
  {xs : List β} {ys : List γ}

lemma forall₂_imp_mem (h : List.Forall₂ R l xs) (himp : ∀ i ∈ l, ∀ x, R i x → S i x) :
    List.Forall₂ S l xs := by
  induction h with
  | nil => exact .nil
  | cons hx _ ih =>
      exact .cons (himp _ List.mem_cons_self _ hx)
        (ih fun i hi => himp i (List.mem_cons_of_mem _ hi))

lemma forall_mem_of_forall₂ {P : α → Prop} (h : List.Forall₂ R l xs)
    (himp : ∀ i x, R i x → P i) : ∀ i ∈ l, P i := by
  induction h with
  | nil => exact fun i hi => absurd hi List.not_mem_nil
  | cons hx _ ih => exact List.forall_mem_cons.mpr ⟨himp _ _ hx, ih⟩

lemma forall₂_of_common (h : List.Forall₂ R l xs) (h' : List.Forall₂ R' l ys)
    (himp : ∀ i ∈ l, ∀ x y, R i x → R' i y → T x y) : List.Forall₂ T xs ys := by
  induction h generalizing ys with
  | nil =>
      cases h'
      exact .nil
  | cons hx _ ih =>
      cases h' with
      | cons hy hys =>
          exact .cons (himp _ List.mem_cons_self _ _ hx hy)
            (ih hys fun i hi => himp i (List.mem_cons_of_mem _ hi))

end Forall₂

end Lists

/-! ### Contacts -/

namespace RouterContact

/-- The address list of an entry. -/
def readAddrs (lib : HostLib) (u : Uninit) (b : Buffer) : Option (Option (List AddressInfo)) :=
  ((aiListBdecode lib u).value [] b).map some

/-- The exit list of an entry. -/
def readExits (lib : HostLib) (b : Buffer) : Option (Option (List ExitInfo)) :=
  ((xiListBdecode lib).value [] b).map some

/-- The time of an entry. -/
def readTime (b : Buffer) : Option UInt64 := (b.readInteger 0).2.map fun _ => (b.readInteger 0).1

/-- What an accepted dictionary leaves in each field. -/
structure Read (lib : HostLib) (u : Uninit) (es : List Entry) (before rc : RouterContact) :
    Prop where
  addrs : Says 'a' es (readAddrs lib u) before.addrs rc.addrs
  pubkey : Says 'k' es (readBlob 32) before.pubkey rc.pubkey
  enckey : Says 'p' es (readBlob 32) before.enckey rc.enckey
  lastUpdated : Says 'u' es readTime before.lastUpdated rc.lastUpdated
  exits : Says 'x' es (readExits lib) before.exits rc.exits
  signature : Says 'z' es (readBlob 64) before.signature rc.signature

variable {lib : HostLib} {u u' : Uninit} {es : List Entry} {before rc rc' : RouterContact}
  {key : Bytes} {b b' : Buffer}

lemma readTime_of_readInteger {t i : UInt64} (h : b.readInteger t = (i, some b')) :
    readTime b = some i := by
  rw [readTime, Buffer.readInteger_of_some 0 h]
  rfl

lemma Read.entry (h : Read lib u es before rc)
    (hk : decodeDict lib u (some key) rc b = (rc', some b')) :
    Read lib u (es ++ [⟨key, b⟩]) before rc' := by
  obtain ⟨haddrs, hpubkey, henckey, htime, hexits, hsig⟩ := h
  rw [decodeDict] at hk
  split_ifs at hk with ha hp he ht hv hx hz
  · obtain ⟨l, hl, rfl⟩ := Reader.part_inv hk
    have hvalue : readAddrs lib u b = some (some l) := by rw [readAddrs, Reader.value_eq hl]; rfl
    exact ⟨.entry ha hvalue _, hpubkey.other ha (by decide), henckey.other ha (by decide),
      htime.other ha (by decide), hexits.other ha (by decide), hsig.other ha (by decide)⟩
  · obtain ⟨x, hx, rfl⟩ := readBlob_of_blob hk
    exact ⟨haddrs.other hp (by decide), .entry hp hx _, henckey.other hp (by decide),
      htime.other hp (by decide), hexits.other hp (by decide), hsig.other hp (by decide)⟩
  · obtain ⟨x, hx, rfl⟩ := readBlob_of_blob hk
    exact ⟨haddrs.other he (by decide), hpubkey.other he (by decide), .entry he hx _,
      htime.other he (by decide), hexits.other he (by decide), hsig.other he (by decide)⟩
  · obtain ⟨i, hi, rfl⟩ := Reader.part_inv hk
    exact ⟨haddrs.other ht (by decide), hpubkey.other ht (by decide), henckey.other ht (by decide),
      .entry ht (readTime_of_readInteger hi) _, hexits.other ht (by decide),
      hsig.other ht (by decide)⟩
  · obtain rfl := Reader.version_inv hk
    exact ⟨haddrs.other hv (by decide), hpubkey.other hv (by decide), henckey.other hv (by decide),
      htime.other hv (by decide), hexits.other hv (by decide), hsig.other hv (by decide)⟩
  · obtain ⟨l, hl, rfl⟩ := Reader.part_inv hk
    have hvalue : readExits lib b = some (some l) := by rw [readExits, Reader.value_eq hl]; rfl
    exact ⟨haddrs.other hx (by decide), hpubkey.other hx (by decide), henckey.other hx (by decide),
      htime.other hx (by decide), .entry hx hvalue _, hsig.other hx (by decide)⟩
  · obtain ⟨x, hs, rfl⟩ := readBlob_of_blob hk
    exact ⟨haddrs.other hz (by decide), hpubkey.other hz (by decide), henckey.other hz (by decide),
      htime.other hz (by decide), hexits.other hz (by decide), .entry hz hs _⟩
  · cases hk

/-- The entries of a contact. -/
def entries (lib : HostLib) (u : Uninit) (rc : RouterContact) (b : Buffer) : List Entry :=
  readEntries (decodeDict lib u) rc b

lemma read_of_bdecode (h : bdecode lib u before b = (rc, some b')) :
    Read lib u (entries lib u before b) before rc :=
  readDict_entries_rule (I := fun es x => Read lib u es before x)
    (fun _ _ _ _ _ _ hI hk => hI.entry hk) (fun _ _ _ hI => hI)
    ⟨says_nil .., says_nil .., says_nil .., says_nil .., says_nil .., says_nil ..⟩ h

/-- The decoder reads the same bytes whatever is on the stack. -/
lemma alike_decodeDict (lib : HostLib) (u u' : Uninit) (key : Option Bytes) :
    Alike (decodeDict lib u key) (decodeDict lib u' key) := by
  cases key with
  | none => exact fun _ _ _ => rfl
  | some key =>
      rw [decodeDict, decodeDict]
      split_ifs
      · exact Alike.part (Alike.readList (alike_aiItem lib u u'))
      · exact alike_blob
      · exact alike_blob
      · refine Alike.part fun t t' b => ?_
        simp only [Buffer.readInteger]
        split_ifs
        · rfl
        · cases (b.skip 1).readNumber (ascii 'e') 31 <;> rfl
      · exact alike_version
      · exact fun _ _ _ => rfl
      · exact alike_blob
      · exact alike_bad

/-- All keys of a contact occur, and so do those of each entry of its lists. -/
structure HasKeys (lib : HostLib) (u : Uninit) (b : Buffer) : Prop where
  contact : ∀ c ∈ ['a', 'k', 'p', 'z'], ∃ e ∈ entries lib u {} b, isKey e.key c = true
  addrs : ∀ e, lastEntry 'a' (entries lib u {} b) = some e →
    ∀ item ∈ readItems (aiItem lib u) [] e.value,
      AddressInfo.HasKeys (AddressInfo.entries lib (u.ai item.cur) item)
  exits : ∀ e, lastEntry 'x' (entries lib u {} b) = some e →
    ∀ item ∈ readItems (xiItem lib) [] e.value, ExitInfo.HasKeys (ExitInfo.entries lib {} item)

/-- A contact that was decoded over a cleared one is what the bytes say: there is a list of
addresses, the keys and the signature are those of entries, and so is each field of each entry of
the lists; and the decode makes the same contact with any other memory on its stack. -/
structure Determined (lib : HostLib) (u : Uninit) (b : Buffer) (rc : RouterContact) : Prop where
  addrs : ∃ l e, rc.addrs = some l ∧ lastEntry 'a' (entries lib u {} b) = some e ∧
    List.Forall₂ (fun item => AddressInfo.SetBy lib (AddressInfo.entries lib (u.ai item.cur) item))
      (readItems (aiItem lib u) [] e.value) l
  pubkey : FromInput 'k' (entries lib u {} b) (readBlob 32) rc.pubkey
  enckey : FromInput 'p' (entries lib u {} b) (readBlob 32) rc.enckey
  signature : FromInput 'z' (entries lib u {} b) (readBlob 64) rc.signature
  exits : ∀ l, rc.exits = some l → ∃ e, lastEntry 'x' (entries lib u {} b) = some e ∧
    List.Forall₂ (fun item => ExitInfo.SetBy lib (ExitInfo.entries lib {} item))
      (readItems (xiItem lib) [] e.value) l
  same : ∀ u' rc' b', bdecode lib u' {} b = (rc', some b') → rc.Same rc'

lemma readAddrs_inv {l : Option (List AddressInfo)} (h : readAddrs lib u b = some l) :
    ∃ xs, l = some xs ∧ List.Forall₂ (AddressAt lib u) (readItems (aiItem lib u) [] b) xs := by
  obtain ⟨xs, hxs, rfl⟩ := Option.map_eq_some_iff.mp h
  obtain ⟨b₁, hb, rfl⟩ := Option.map_eq_some_iff.mp hxs
  exact ⟨_, rfl, aiList_spec (Prod.ext rfl hb)⟩

lemma readExits_inv {l : Option (List ExitInfo)} (h : readExits lib b = some l) :
    ∃ xs, l = some xs ∧ List.Forall₂ (ExitAt lib) (readItems (xiItem lib) [] b) xs := by
  obtain ⟨xs, hxs, rfl⟩ := Option.map_eq_some_iff.mp h
  obtain ⟨b₁, hb, rfl⟩ := Option.map_eq_some_iff.mp hxs
  exact ⟨_, rfl, xiList_spec (Prod.ext rfl hb)⟩

/-- What the last entry under the key of the addresses says. -/
lemma Read.addrs_some (h : Read lib u es before rc) {e : Entry} (he : lastEntry 'a' es = some e) :
    ∃ l, rc.addrs = some l ∧
      List.Forall₂ (AddressAt lib u) (readItems (aiItem lib u) [] e.value) l := by
  have haddrs := h.addrs
  rw [Says, he] at haddrs
  exact readAddrs_inv haddrs

lemma Read.exits_some (h : Read lib u es before rc) {e : Entry} (he : lastEntry 'x' es = some e) :
    ∃ l, rc.exits = some l ∧ List.Forall₂ (ExitAt lib) (readItems (xiItem lib) [] e.value) l := by
  have hexits := h.exits
  rw [Says, he] at hexits
  exact readExits_inv hexits

/-- Two decodes of the same bytes. -/
lemma Read.same (h : Read lib u es {} rc) (h' : Read lib u' es {} rc')
    (hkeys : ∀ e, lastEntry 'a' es = some e → ∀ item ∈ readItems (aiItem lib u) [] e.value,
      AddressInfo.HasKeys (AddressInfo.entries lib (u.ai item.cur) item)) : rc.Same rc' where
  addrs := by
    cases he : lastEntry 'a' es with
    | none =>
        have haddrs := h.addrs
        have haddrs' := h'.addrs
        rw [Says, he] at haddrs haddrs'
        rw [haddrs, haddrs']
        exact .none
    | some e =>
        obtain ⟨l, hl, hall⟩ := h.addrs_some he
        obtain ⟨l', hl', hall'⟩ := h'.addrs_some he
        rw [hl, hl']
        have hitems : readItems (aiItem lib u') [] e.value = readItems (aiItem lib u) [] e.value :=
          Alike.readItems (alike_aiItem lib u' u) _ _ _
        rw [hitems] at hall'
        refine .some (forall₂_of_common hall hall' fun item hitem ai ai' hai hai' => ?_)
        obtain ⟨b₁, hai⟩ := hai
        obtain ⟨b₁', hai'⟩ := hai'
        have hentries : AddressInfo.entries lib (u'.ai item.cur) item =
            AddressInfo.entries lib (u.ai item.cur) item :=
          Alike.readEntries (AddressInfo.alike_decodeKey lib) _ _ _
        have hread := AddressInfo.read_of_bdecode hai
        have hread' := AddressInfo.read_of_bdecode hai'
        rw [hentries] at hread'
        exact hread.same hread' (hkeys e he item hitem)
  enckey := h'.enckey.unique h.enckey
  pubkey := h'.pubkey.unique h.pubkey
  exits := h'.exits.unique h.exits
  signature := h'.signature.unique h.signature
  lastUpdated := h'.lastUpdated.unique h.lastUpdated

/-- **An accepted contact is determined by its bytes exactly if all the keys occur.** -/
theorem determined_iff (lib : HostLib) (u : Uninit) (b b' : Buffer) (rc : RouterContact)
    (h : bdecode lib u {} b = (rc, some b')) : Determined lib u b rc ↔ HasKeys lib u b := by
  have hread := read_of_bdecode h
  constructor
  · intro hdet
    obtain ⟨l, e, hl, he, hall⟩ := hdet.addrs
    refine ⟨?_, fun e' he' => ?_, fun e' he' => ?_⟩
    · simp only [List.forall_mem_cons, List.not_mem_nil, false_imp_iff, implies_true, and_true]
      exact ⟨lastEntry_isSome.mp (he ▸ rfl), hdet.pubkey.hasKey, hdet.enckey.hasKey,
        hdet.signature.hasKey⟩
    · obtain rfl : e = e' := Option.some.inj (he.symm.trans he')
      exact forall_mem_of_forall₂ hall fun item ai hset => hset.hasKeys
    · obtain ⟨l', hl', -⟩ := hread.exits_some he'
      obtain ⟨e₁, he₁, hall⟩ := hdet.exits l' hl'
      obtain rfl : e₁ = e' := Option.some.inj (he₁.symm.trans he')
      exact forall_mem_of_forall₂ hall fun item xi hset => hset.hasKeys
  · intro hkeys
    have hkey {c : Char} (hc : c ∈ ['a', 'k', 'p', 'z']) := hkeys.contact c hc
    obtain ⟨e, he⟩ := Option.isSome_iff_exists.mp (lastEntry_isSome.mpr (hkey (c := 'a') (by simp)))
    refine ⟨?_, hread.pubkey.fromInput (hkey (by simp)), hread.enckey.fromInput (hkey (by simp)),
      hread.signature.fromInput (hkey (by simp)), fun l hl => ?_, fun u' rc' b'' h' => ?_⟩
    · obtain ⟨l, hl, hall⟩ := hread.addrs_some he
      refine ⟨l, e, hl, he, forall₂_imp_mem hall fun item hitem ai hai => ?_⟩
      obtain ⟨b₁, hai⟩ := hai
      exact (AddressInfo.read_of_bdecode hai).setBy (hkeys.addrs e he item hitem)
    · cases hx : lastEntry 'x' (entries lib u {} b) with
      | none =>
          have hexits := hread.exits
          rw [Says, hx, hl] at hexits
          cases hexits
      | some e' =>
          obtain ⟨l', hl', hall⟩ := hread.exits_some hx
          obtain rfl : l' = l := Option.some.inj (hl'.symm.trans hl)
          refine ⟨e', rfl, forall₂_imp_mem hall fun item hitem xi hxi => ?_⟩
          obtain ⟨b₁, hxi⟩ := hxi
          exact (ExitInfo.read_of_bdecode hxi).setBy (hkeys.exits e' hx item hitem)
    · have hread' := read_of_bdecode h'
      have hentries : entries lib u' {} b = entries lib u {} b :=
        Alike.readEntries (alike_decodeDict lib u' u) _ _ _
      rw [hentries] at hread'
      exact hread.same hread' hkeys.addrs

theorem determined_iff_reachable : ∃ rc b',
    bdecode plainHost zeroMemory {} (.ofBytes (reachable.encoding plainHost) fun _ => 0) =
      (rc, some b') ∧
    (Determined plainHost zeroMemory (.ofBytes (reachable.encoding plainHost) fun _ => 0) rc ↔
      HasKeys plainHost zeroMemory (.ofBytes (reachable.encoding plainHost) fun _ => 0)) := by
  obtain ⟨rc, hread, -⟩ := reads_bdecode (u := zeroMemory) plainHost_lawful reachable_wellFormed
    (by decide) {} (.ofBytes (reachable.encoding plainHost) fun _ => 0) (Buffer.holds_ofBytes _ _)
  exact ⟨rc, _, hread, determined_iff plainHost zeroMemory _ _ rc hread⟩

/-- A dictionary without entries is accepted, and leaves no list of addresses. -/
theorem not_determined : ¬ ∀ (lib : HostLib) (u : Uninit) (b b' : Buffer) (rc : RouterContact),
    bdecode lib u {} b = (rc, some b') → Determined lib u b rc := by
  intro h
  have hdet := h plainHost zeroMemory (.ofBytes [ascii 'd', ascii 'e'] fun _ => 0) _ {} rfl
  obtain ⟨l, e, hl, -⟩ := hdet.addrs
  cases hl

end RouterContact

end Udap
