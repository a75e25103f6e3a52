import Udap.Bencode.Trace
import Udap.Bencode.Window

/-!
What a decoded object owes to the bytes.

* `Says`: a part of an object is what the last entry under its key says, or what it was before;
  `readDict_entries_rule` carries it over an accepted dictionary.
* `readList_spec`: a list is decoded item by item from the places of `readItems`.
* `Alike`: two decoders that read the same bytes, whatever they make of them;
  `Alike.readDict`, `Alike.readList`: so do the loops over them, entry by entry and item by item.
-/

namespace Udap

open ByteMem

variable {α β γ δ : Type}

/-- The last entry under the key. -/
def lastEntry (c : Char) (es : List Entry) : Option Entry :=
  (es.filter fun e => isKey e.key c).getLast?

lemma lastEntry_append (c : Char) (es : List Entry) (e : Entry) :
    lastEntry c (es ++ [e]) = if isKey e.key c then some e else lastEntry c es := by
  rw [lastEntry, List.filter_append]
  split_ifs with h
  · simp [h]
  · simp [h, lastEntry]

lemma lastEntry_mem {c : Char} {es : List Entry} {e : Entry} (h : lastEntry c es = some e) :
    e ∈ es ∧ isKey e.key c = true := List.mem_filter.mp (List.mem_of_getLast? h)

lemma lastEntry_isSome {c : Char} {es : List Entry} :
    (lastEntry c es).isSome = true ↔ ∃ e ∈ es, isKey e.key c = true := by
  simp [lastEntry]

/-- An integer that was read: the text of a number between its letters. -/
lemma Buffer.readInteger_inv {b b' : Buffer} {t i : UInt64}
    (h : b.readInteger t = (i, some b')) : b.peek = ascii 'i' ∧ ∃ text rest,
      (b.skip 1).readNumber (ascii 'e') 31 = some (text, rest) ∧ i = UInt64.ofInt (strtol text) ∧
      i ≠ UInt64.ofInt (-1) ∧ b' = rest.skip 1 := by
  rw [Buffer.readInteger] at h
  by_cases hpeek : b.peek ≠ ascii 'i'
  · rw [if_pos hpeek] at h
    cases h
  · rw [if_neg hpeek] at h
    cases hn : (b.skip 1).readNumber (ascii 'e') 31 with
    | none =>
        rw [hn] at h
        cases h
    | some r =>
        simp only [hn, Prod.mk.injEq] at h
        obtain ⟨rfl, hrest⟩ := h
        split_ifs at hrest with hne
        exact ⟨not_not.mp hpeek, r.1, r.2, rfl, rfl, hne, (Option.some.inj hrest).symm⟩

/-- What was in the target does not matter. -/
lemma Buffer.readInteger_of_some {b b' : Buffer} {t i : UInt64} (t' : UInt64)
    (h : b.readInteger t = (i, some b')) : b.readInteger t' = (i, some b') := by
  obtain ⟨hpeek, text, rest, hn, rfl, hne, rfl⟩ := Buffer.readInteger_inv h
  rw [Buffer.readInteger, if_neg (not_not.mpr hpeek), hn]
  exact Prod.ext rfl (if_neg hne)

/-! ### Fields -/

/-- A part of an object is what the last entry under its key says, and without an entry what it was
before. -/
def Says (c : Char) (es : List Entry) (value : Buffer → Option γ) (before x : γ) : Prop :=
  match lastEntry c es with
  | none => x = before
  | some e => value e.value = some x

/-- A part of an object is what an entry under its key says. -/
def FromInput (c : Char) (es : List Entry) (value : Buffer → Option γ) (x : γ) : Prop :=
  ∃ e ∈ es, isKey e.key c = true ∧ value e.value = some x

section Says

variable {c d : Char} {es : List Entry} {value : Buffer → Option γ} {before x x' : γ} {key : Bytes}
  {b : Buffer}

lemma says_nil (c : Char) (value : Buffer → Option γ) (x : γ) : Says c [] value x x := rfl

lemma Says.entry (hkey : isKey key c = true) (h : value b = some x) (before : γ) :
    Says c (es ++ [⟨key, b⟩]) value before x := by
  rw [Says, lastEntry_append, if_pos hkey]
  exact h

lemma Says.other (h : Says c es value before x) (hkey : isKey key d = true)
    (hne : ascii d ≠ ascii c) : Says c (es ++ [⟨key, b⟩]) value before x := by
  rwa [Says, lastEntry_append, isKey_eq_false hkey hne]

lemma Says.unique (h : Says c es value before x) (h' : Says c es value before x') : x = x' := by
  rw [Says] at h h'
  cases he : lastEntry c es with
  | none =>
      rw [he] at h h'
      exact h.trans h'.symm
  | some e =>
      rw [he] at h h'
      exact Option.some.inj (h.symm.trans h')

/-- With an entry the part is set by it. -/
lemma Says.fromInput (h : Says c es value before x) (hkey : ∃ e ∈ es, isKey e.key c = true) :
    FromInput c es value x := by
  obtain ⟨e, he⟩ := Option.isSome_iff_exists.mp (lastEntry_isSome.mpr hkey)
  rw [Says, he] at h
  exact ⟨e, (lastEntry_mem he).1, (lastEntry_mem he).2, h⟩

/-- It does not matter then what was there before. -/
lemma Says.eq_of_key {before' : γ} (h : Says c es value before x)
    (h' : Says c es value before' x') (hkey : ∃ e ∈ es, isKey e.key c = true) : x = x' := by
  obtain ⟨e, he⟩ := Option.isSome_iff_exists.mp (lastEntry_isSome.mpr hkey)
  rw [Says, he] at h h'
  exact Option.some.inj (h.symm.trans h')

lemma FromInput.hasKey (h : FromInput c es value x) : ∃ e ∈ es, isKey e.key c = true := by
  obtain ⟨e, he, hkey, -⟩ := h
  exact ⟨e, he, hkey⟩

end Says

section Entries

variable {onKey : Option Bytes → Reader α} {a a' : α} {b b' : Buffer}

/-- The entries that `bencode_read_dict` reads. -/
def readEntries (onKey : Option Bytes → Reader α) (a : α) (b : Buffer) : List Entry :=
  entriesOf (readCalls onKey a b)

/-- An accepted dictionary is read to its end. -/
lemma reachesEnd_of_readDict (h : readDict onKey a b = (a', some b')) :
    ReachesEnd (readCalls onKey a b) := by
  by_contra hno
  obtain ⟨-, hnone⟩ := readDict_of_not_end (P := fun _ => True) (fun _ _ _ _ => trivial) trivial hno
  rw [h] at hnone
  cases hnone

/-- An invariant over the entries that were read holds at the end of an accepted dictionary. -/
lemma readDict_entries_rule {I : List Entry → α → Prop}
    (hstep : ∀ es key a b a' b', I es a → onKey (some key) a b = (a', some b') →
      I (es ++ [⟨key, b⟩]) a')
    (hdone : ∀ es a b, I es a → I es (onKey none a b).1) (ha : I [] a)
    (h : readDict onKey a b = (a', some b')) : I (readEntries onKey a b) a' := by
  obtain ⟨c, hc, hnone⟩ := reachesEnd_of_readDict h
  obtain ⟨hlast, pre, hpre, hentries⟩ := readDict_of_end hc hnone
  have hI := readCalls_rule hstep ha hpre
  rw [hentries] at hI
  have hobject : (onKey none c.object c.buffer).1 = a' := congrArg Prod.fst (hlast.symm.trans h)
  rw [readEntries, ← hobject]
  exact hdone _ _ _ hI

end Entries

/-! ### Items -/

/-- Where the items start that the loop of `bencode_read_list` reads. -/
def listItems (onItem : Bool → Reader α) : ℕ → α → Buffer → List Buffer
  | 0, _, _ => []
  | fuel + 1, a, b =>
      if b.sizeLeft ≠ 0 ∧ b.peek ≠ ascii 'e' then
        b ::
          match onItem true a b with
          | (_, none) => []
          | (a, some b) => listItems onItem fuel a b
      else []

/-- Where the items start that `bencode_read_list` reads. -/
def readItems (onItem : Bool → Reader α) (a : α) (b : Buffer) : List Buffer :=
  if b.peek ≠ ascii 'l' then []
  else listItems onItem ((b.skip 1).sizeLeft + 1) a (b.skip 1)

section Items

variable {onItem : Bool → Reader (List α)} {Item : Buffer → α → Prop} {l l' : List α}
  {b b' : Buffer}

lemma listLoop_spec
    (hitem : ∀ {l b l' b'}, onItem true l b = (l', some b') → ∃ x, l' = l ++ [x] ∧ Item b x)
    (hend : ∀ l b, (onItem false l b).1 = l) (fuel : ℕ)
    (h : listLoop onItem fuel l b = (l', some b')) :
    ∃ xs, l' = l ++ xs ∧ List.Forall₂ Item (listItems onItem fuel l b) xs := by
  induction fuel generalizing l b with
  | zero => simp [listLoop] at h
  | succ fuel ih =>
      rw [listLoop] at h
      rw [listItems]
      split_ifs at h ⊢ with hmore hpeek
      · obtain ⟨l₁, ob, hi⟩ : ∃ l₁ ob, onItem true l b = (l₁, ob) := ⟨_, _, rfl⟩
        cases ob with
        | none => simp [hi] at h
        | some b₁ =>
            simp only [hi] at h ⊢
            obtain ⟨x, rfl, hx⟩ := hitem hi
            obtain ⟨xs, rfl, hxs⟩ := ih h
            exact ⟨x :: xs, List.append_assoc .., .cons hx hxs⟩
      · cases h
      · refine ⟨[], ?_, .nil⟩
        rw [List.append_nil, ← hend l (b.skip 1), h]

/-- A list that is accepted is what its items are decoded to. -/
lemma readList_spec
    (hitem : ∀ {l b l' b'}, onItem true l b = (l', some b') → ∃ x, l' = l ++ [x] ∧ Item b x)
    (hend : ∀ l b, (onItem false l b).1 = l) (h : readList onItem l b = (l', some b')) :
    ∃ xs, l' = l ++ xs ∧ List.Forall₂ Item (readItems onItem l b) xs := by
  rw [readList] at h
  rw [readItems]
  split_ifs at h ⊢
  · cases h
  · exact listLoop_spec hitem hend _ h

end Items

/-! ### Decoders that read the same bytes -/

/-- The verdict and the position after it do not depend on the object, nor on which of the two
decoders it is. -/
def Alike (r : Reader α) (r' : Reader β) : Prop := ∀ a a' b, (r a b).2 = (r' a' b).2

section Alike

variable {r : Reader α} {r' : Reader β}

lemma Alike.outcome (h : Alike r r') (a : α) (a' : β) (b : Buffer) :
    ∃ x x' ob, r a b = (x, ob) ∧ r' a' b = (x', ob) :=
  ⟨(r a b).1, (r' a' b).1, (r a b).2, rfl, Prod.ext rfl (h a a' b).symm⟩

lemma alike_string {f : α → Bytes → Option α} {f' : β → Bytes → Option β}
    (h : ∀ a a' str, (f a str).isSome = (f' a' str).isSome) :
    Alike (Reader.string f) (Reader.string f') := by
  intro a a' b
  rw [Reader.string, Reader.string]
  cases b.readString with
  | none => rfl
  | some r =>
      have hsome := h a a' r.1
      dsimp only
      cases hf : f a r.1 <;> cases hf' : f' a' r.1 <;> simp [hf, hf'] at hsome ⊢

lemma alike_integer {f : α → UInt64 → Option α} {f' : β → UInt64 → Option β}
    (h : ∀ a a' i, (f a i).isSome = (f' a' i).isSome) :
    Alike (Reader.integer f) (Reader.integer f') := by
  intro a a' b
  rw [Reader.integer, Reader.integer]
  obtain ⟨i, ob, hread⟩ : ∃ i ob, b.readInteger 0 = (i, ob) := ⟨_, _, rfl⟩
  rw [hread]
  cases ob with
  | none => rfl
  | some b₁ =>
      have hsome := h a a' i
      dsimp only
      cases hf : f a i <;> cases hf' : f' a' i <;> simp [hf, hf'] at hsome ⊢

lemma alike_blob {n : ℕ} {f : α → Blob n → α} {f' : β → Blob n → β} :
    Alike (Reader.blob n f) (Reader.blob n f') :=
  alike_string fun a a' str => by split_ifs <;> rfl

lemma alike_version : Alike (Reader.version : Reader α) (Reader.version : Reader β) :=
  alike_integer fun a a' i => by split_ifs <;> rfl

lemma alike_bad : Alike (Reader.bad : Reader α) (Reader.bad : Reader β) := fun _ _ _ => rfl

lemma Alike.part {get : γ → α} {set : γ → α → γ} {get' : δ → β} {set' : δ → β → δ}
    (h : Alike r r') : Alike (Reader.part get set r) (Reader.part get' set' r') :=
  fun a a' b => h (get a) (get' a') b

/-! Both loops test the bytes only, so that alike rounds make alike loops. -/

section Loop

variable {round stop : Reader α} {round' stop' : Reader β} {f : ℕ → Reader α}
  {f' : ℕ → Reader β}

lemma Alike.afterLoop (h : Alike stop stop') : Alike (afterLoop stop) (afterLoop stop') := by
  intro a a' b
  rw [Udap.afterLoop, Udap.afterLoop]
  split_ifs
  · rfl
  · exact h a a' (b.skip 1)

lemma Alike.loop (h : Alike round round') (hstop : Alike stop stop')
    (hloop : IsLoop round stop f) (hloop' : IsLoop round' stop' f')
    (hzero : Alike (f 0) (f' 0)) (fuel : ℕ) : Alike (f fuel) (f' fuel) := by
  induction fuel with
  | zero => exact hzero
  | succ fuel ih =>
      intro a a' b
      rw [hloop, hloop']
      split_ifs
      · obtain ⟨x, x', ob, hx, hx'⟩ := h.outcome a a' b
        simp only [hx, hx']
        cases ob with
        | none => rfl
        | some b₁ => exact ih x x' b₁
      · exact hstop.afterLoop a a' b

end Loop

section Dict

variable {onKey : Option Bytes → Reader α} {onKey' : Option Bytes → Reader β}

lemma Alike.entry (h : ∀ key, Alike (onKey key) (onKey' key)) :
    Alike (entry onKey) (entry onKey') := by
  intro a a' b
  rw [Udap.entry, Udap.entry]
  cases b.readString with
  | none => rfl
  | some s => exact h (some s.1) a a' s.2

lemma Alike.readDict (h : ∀ key, Alike (onKey key) (onKey' key)) :
    Alike (readDict onKey) (readDict onKey') := by
  intro a a' b
  rw [Udap.readDict, Udap.readDict]
  split_ifs
  · rfl
  · exact (Alike.entry h).loop (h none) (isLoop_dictLoop onKey) (isLoop_dictLoop onKey')
      alike_bad _ a a' _

lemma Alike.dictCalls (h : ∀ key, Alike (onKey key) (onKey' key)) (fuel : ℕ) (a : α) (a' : β)
    (b : Buffer) :
    entriesOf (dictCalls onKey fuel a b) = entriesOf (dictCalls onKey' fuel a' b) := by
  induction fuel generalizing a a' b with
  | zero => rfl
  | succ fuel ih =>
      rw [Udap.dictCalls, Udap.dictCalls]
      split_ifs
      · cases b.readString with
        | none => rfl
        | some s =>
            obtain ⟨x, x', ob, hx, hx'⟩ := (h (some s.1)).outcome a a' s.2
            simp only [hx, hx']
            cases ob with
            | none => rfl
            | some b₁ => exact congrArg (⟨s.1, s.2⟩ :: ·) (ih x x' b₁)
      · rfl
      · rfl

lemma Alike.readEntries (h : ∀ key, Alike (onKey key) (onKey' key)) (a : α) (a' : β)
    (b : Buffer) : readEntries onKey a b = readEntries onKey' a' b := by
  rw [Udap.readEntries, Udap.readEntries, readCalls, readCalls]
  split_ifs
  · rfl
  · exact Alike.dictCalls h _ a a' _

end Dict

section List

variable {onItem : Bool → Reader α} {onItem' : Bool → Reader β}

lemma Alike.readList (h : ∀ more, Alike (onItem more) (onItem' more)) :
    Alike (readList onItem) (readList onItem') := by
  intro a a' b
  rw [Udap.readList, Udap.readList]
  split_ifs
  · rfl
  · exact (h true).loop (h false) (isLoop_listLoop onItem) (isLoop_listLoop onItem')
      alike_bad _ a a' _

lemma Alike.listItems (h : ∀ more, Alike (onItem more) (onItem' more)) (fuel : ℕ) (a : α)
    (a' : β) (b : Buffer) : listItems onItem fuel a b = listItems onItem' fuel a' b := by
  induction fuel generalizing a a' b with
  | zero => rfl
  | succ fuel ih =>
      rw [Udap.listItems, Udap.listItems]
      split_ifs
      · obtain ⟨x, x', ob, hx, hx'⟩ := (h true).outcome a a' b
        simp only [hx, hx']
        cases ob with
        | none => rfl
        | some b₁ => exact congrArg (b :: ·) (ih x x' b₁)
      · rfl

lemma Alike.readItems (h : ∀ more, Alike (onItem more) (onItem' more)) (a : α) (a' : β)
    (b : Buffer) : readItems onItem a b = readItems onItem' a' b := by
  rw [Udap.readItems, Udap.readItems]
  split_ifs
  · rfl
  · exact Alike.listItems h _ a a' _

end List

end Alike

end Udap
