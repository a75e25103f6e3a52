import Udap.Bencode.Codec

/-!
What a writer leaves in a buffer, at every capacity.

A formatted text that fits exactly loses its last byte to the terminator, the writer reports
success, and no room is left. A list of a contact ends at the first entry that fails, and reports
success too. Both leave little room, and what a message needs behind them is longer.

* `Emits m w s`: with room to spare `w` writes `s`; when it reports success it has written `s`, or
  there is room for `m` bytes at most.
* `Stalls k w`: when `w` reports a failure there is room for `k` bytes at most.
* `Sure w s`: `w` reports success if and only if `s` fits, and then it has written `s`.
* `Sure.cons_short`: writers in turn are sure if the rest is sure and longer than the room that the
  first one may leave.
-/

namespace Udap

open ByteMem

namespace Buffer

/-- The position is in the window. -/
def Inside (b : Buffer) : Prop := b.cur ≤ b.sz

/-- The bytes from a position on, up to that of the buffer. -/
def since (b : Buffer) (c : ℕ) : Bytes := { b with cur := c }.bytes (b.cur - c)

/-- `b'` is `b` with `s` written. -/
structure Wrote (b : Buffer) (s : Bytes) (b' : Buffer) : Prop where
  inside : b'.Inside
  sz : b'.sz = b.sz
  written : b'.written = b.written ++ s

/-- `b'` is `b` with room for `m` bytes at most. -/
structure Short (b : Buffer) (m : ℕ) (b' : Buffer) : Prop where
  inside : b'.Inside
  sz : b'.sz = b.sz
  room : b'.sizeLeft ≤ m

variable {b b₁ b₂ : Buffer} {s t : Bytes} {m n : ℕ}

lemma written_eq (b : Buffer) : b.written = (List.range b.cur).map b.mem := by
  rw [written, bytes]
  exact List.map_congr_left fun i _ => congrArg b.mem (Nat.zero_add i)

lemma written_length (b : Buffer) : b.written.length = b.cur := by
  rw [written_eq, List.length_map, List.length_range]

lemma Wrote.cur (h : b.Wrote s b₁) : b₁.cur = b.cur + s.length := by
  have hlen := congrArg List.length h.written
  rwa [List.length_append, written_length, written_length] at hlen

lemma Wrote.sizeLeft (h : b.Wrote s b₁) : b₁.sizeLeft + s.length = b.sizeLeft := by
  have hin : b₁.cur ≤ b₁.sz := h.inside
  rw [h.cur, h.sz] at hin
  rw [Buffer.sizeLeft, Buffer.sizeLeft, h.cur, h.sz]
  omega

lemma written_eq_since (b : Buffer) {c : ℕ} (h : c ≤ b.cur) :
    b.written = (List.range c).map b.mem ++ b.since c := by
  rw [written_eq, ← Nat.add_sub_cancel' h, List.range_add, List.map_append, List.map_map]
  rfl

/-- Nothing else is changed in front of the position. -/
lemma Wrote.since_eq (h : b.Wrote s b₁) : b₁.since b.cur = s ∧ ∀ i < b.cur, b₁.mem i = b.mem i := by
  have hcur := h.cur
  have hwritten := h.written
  rw [b₁.written_eq_since (by omega : b.cur ≤ b₁.cur), b.written_eq] at hwritten
  obtain ⟨hbefore, hsince⟩ := List.append_inj hwritten (by simp)
  exact ⟨hsince, fun i hi => List.map_inj_left.mp hbefore i (List.mem_range.mpr hi)⟩

lemma Wrote.nil (h : b.Inside) : b.Wrote [] b := ⟨h, rfl, (List.append_nil _).symm⟩

lemma Wrote.trans (h : b.Wrote s b₁) (h' : b₁.Wrote t b₂) : b.Wrote (s ++ t) b₂ := by
  refine ⟨h'.inside, h'.sz.trans h.sz, ?_⟩
  rw [h'.written, h.written, List.append_assoc]

lemma Wrote.short (h : b.Wrote s b₁) (hb : b.sizeLeft ≤ m) : b.Short m b₁ :=
  ⟨h.inside, h.sz, by have := h.sizeLeft; omega⟩

lemma Short.mono (h : b.Short m b₁) (hmn : m ≤ n) : b.Short n b₁ :=
  ⟨h.inside, h.sz, h.room.trans hmn⟩

/-- What is written in front of a short buffer, or behind a written one. -/
lemma Short.of_sz (h : b₁.Short m b₂) (hsz : b₁.sz = b.sz) : b.Short m b₂ :=
  ⟨h.inside, h.sz.trans hsz, h.room⟩

/-- A copy to the position, of which the first bytes are kept. -/
lemma wrote_store (hb : b.Inside) (hs : s.length ≤ b.sizeLeft) (more : Bytes) :
    b.Wrote s ((b.store (s ++ more)).skip s.length) := by
  have hin : b.cur ≤ b.sz := hb
  have hleft : b.sizeLeft = b.sz - b.cur := rfl
  have hmem : ∀ i, ((b.store (s ++ more)).skip s.length).mem i =
      if b.cur ≤ i ∧ i < b.cur + (s ++ more).length then (s ++ more).getD (i - b.cur) 0
      else b.mem i := fun _ => rfl
  refine ⟨?_, rfl, ?_⟩
  · change b.cur + s.length ≤ b.sz
    omega
  · rw [written_eq, written_eq]
    change (List.range (b.cur + s.length)).map _ = _
    rw [List.range_add, List.map_append, List.map_map]
    congr 1
    · refine List.map_congr_left fun i hi => ?_
      have hi := List.mem_range.mp hi
      rw [hmem, if_neg (by omega)]
    · refine List.ext_getElem (by rw [List.length_map, List.length_range]) fun i hi hlt => ?_
      have hlen : i < (s ++ more).length := by
        rw [List.length_append]
        omega
      rw [List.getElem_map, List.getElem_range, Function.comp_apply, hmem,
        if_pos ⟨Nat.le_add_right .., by omega⟩, Nat.add_sub_cancel_left,
        List.getD_eq_getElem?_getD, List.getElem?_eq_getElem hlen, Option.getD_some,
        List.getElem_append_left hlt]

end Buffer

open Buffer

/-- What a writer has done when it reports success. -/
structure Emits (m : ℕ) (w : Writer) (s : Bytes) : Prop where
  done : ∀ b : Buffer, b.Inside → (w b).2 = true → b.Wrote s (w b).1 ∨ b.Short m (w b).1
  fits : ∀ b : Buffer, b.Inside → s.length < b.sizeLeft → (w b).2 = true ∧ b.Wrote s (w b).1

/-- What a writer leaves when it reports a failure. -/
structure Stalls (k : ℕ) (w : Writer) : Prop where
  keeps : ∀ b : Buffer, b.Inside → (w b).1.Inside ∧ (w b).1.sz = b.sz
  room : ∀ b : Buffer, b.Inside → (w b).2 = false → (w b).1.sizeLeft ≤ k

/-- A writer of some bytes that reports success if and only if they fit. -/
structure Sure (w : Writer) (s : Bytes) : Prop where
  ne_nil : s ≠ []
  fits_iff : ∀ b : Buffer, b.Inside → ((w b).2 = true ↔ s.length ≤ b.sizeLeft)
  wrote : ∀ b : Buffer, b.Inside → (w b).2 = true → b.Wrote s (w b).1

section Writers

variable {w : Writer} {ws : List Writer} {s t : Bytes} {m n k : ℕ}

lemma Sure.emits (h : Sure w s) : Emits 0 w s where
  done b hb hw := .inl (h.wrote b hb hw)
  fits b hb hs := by
    have hw := (h.fits_iff b hb).mpr hs.le
    exact ⟨hw, h.wrote b hb hw⟩

lemma Emits.mono (h : Emits m w s) (hmn : m ≤ n) : Emits n w s where
  done b hb hw := (h.done b hb hw).imp_right fun hshort => hshort.mono hmn
  fits := h.fits

lemma Stalls.mono (h : Stalls m w) (hmn : m ≤ n) : Stalls n w where
  keeps := h.keeps
  room b hb hw := (h.room b hb hw).trans hmn

/-! ### Writers in turn -/

lemma all_cons_of_true {b : Buffer} (h : (w b).2 = true) :
    Writer.all (w :: ws) b = Writer.all ws (w b).1 := by
  rw [Writer.all]
  split
  · rename_i heq
    rw [heq]
  · rename_i heq
    rw [heq] at h
    cases h

lemma all_cons_of_false {b : Buffer} (h : (w b).2 = false) :
    Writer.all (w :: ws) b = ((w b).1, false) := by
  rw [Writer.all]
  split
  · rename_i heq
    rw [heq] at h
    cases h
  · rename_i heq
    rw [heq]

lemma all_cons_true {b : Buffer} (h : (Writer.all (w :: ws) b).2 = true) : (w b).2 = true := by
  by_contra hw
  rw [all_cons_of_false (Bool.eq_false_iff.mpr hw)] at h
  cases h

lemma Emits.nil : Emits 0 (.all []) [] where
  done _ hb _ := .inl (.nil hb)
  fits _ hb _ := ⟨rfl, .nil hb⟩

lemma Emits.cons (h : Emits m w s) (h' : Emits m (.all ws) t) :
    Emits m (.all (w :: ws)) (s ++ t) where
  done b hb hw := by
    have hw₁ := all_cons_true hw
    rw [all_cons_of_true hw₁] at hw ⊢
    rcases h.done b hb hw₁ with hwrote | hshort
    · rcases h'.done _ hwrote.inside hw with hwrote' | hshort'
      · exact .inl (hwrote.trans hwrote')
      · exact .inr (hshort'.of_sz hwrote.sz)
    · rcases h'.done _ hshort.inside hw with hwrote' | hshort'
      · exact .inr ((hwrote'.short hshort.room).of_sz hshort.sz)
      · exact .inr (hshort'.of_sz hshort.sz)
  fits b hb hs := by
    rw [List.length_append] at hs
    obtain ⟨hw₁, hwrote⟩ := h.fits b hb (by omega)
    have hleft := hwrote.sizeLeft
    obtain ⟨hw, hwrote'⟩ := h'.fits _ hwrote.inside (by omega)
    rw [all_cons_of_true hw₁]
    exact ⟨hw, hwrote.trans hwrote'⟩

/-- The first writer may leave little room without having written what it stands for: then what
follows does not fit. -/
lemma Sure.cons_short (h : Emits m w s) (h' : Sure (.all ws) t) (hm : m < t.length) :
    Sure (.all (w :: ws)) (s ++ t) where
  ne_nil := List.append_ne_nil_of_right_ne_nil s h'.ne_nil
  fits_iff b hb := by
    rw [List.length_append]
    constructor
    · intro hw
      have hw₁ := all_cons_true hw
      rw [all_cons_of_true hw₁] at hw
      rcases h.done b hb hw₁ with hwrote | hshort
      · have hleft := hwrote.sizeLeft
        have hfits := (h'.fits_iff _ hwrote.inside).mp hw
        omega
      · have hfits := (h'.fits_iff _ hshort.inside).mp hw
        have hroom := hshort.room
        omega
    · intro hs
      obtain ⟨hw₁, hwrote⟩ := h.fits b hb (by omega)
      have hleft := hwrote.sizeLeft
      rw [all_cons_of_true hw₁]
      exact (h'.fits_iff _ hwrote.inside).mpr (by omega)
  wrote b hb hw := by
    have hw₁ := all_cons_true hw
    rw [all_cons_of_true hw₁] at hw ⊢
    rcases h.done b hb hw₁ with hwrote | hshort
    · exact hwrote.trans (h'.wrote _ hwrote.inside hw)
    · have hfits := (h'.fits_iff _ hshort.inside).mp hw
      have hroom := hshort.room
      omega

lemma Sure.cons (h : Emits 0 w s) (h' : Sure (.all ws) t) : Sure (.all (w :: ws)) (s ++ t) :=
  .cons_short h h' (List.length_pos_of_ne_nil h'.ne_nil)

lemma Sure.single (h : Sure w s) : Sure (.all [w]) s where
  ne_nil := h.ne_nil
  fits_iff b hb := by
    rw [← h.fits_iff b hb]
    constructor
    · exact all_cons_true
    · intro hw
      rw [all_cons_of_true hw]
      rfl
  wrote b hb hw := by
    have hw₁ := all_cons_true hw
    rw [all_cons_of_true hw₁]
    exact h.wrote b hb hw₁

lemma Stalls.nil : Stalls 0 (.all []) where
  keeps _ hb := ⟨hb, rfl⟩
  room _ _ hw := by cases hw

lemma Stalls.cons (h : Stalls k w) (h' : Stalls k (.all ws)) : Stalls k (.all (w :: ws)) where
  keeps b hb := by
    obtain ⟨hin, hsz⟩ := h.keeps b hb
    cases hw : (w b).2 with
    | true =>
        rw [all_cons_of_true hw]
        obtain ⟨hin', hsz'⟩ := h'.keeps _ hin
        exact ⟨hin', hsz'.trans hsz⟩
    | false =>
        rw [all_cons_of_false hw]
        exact ⟨hin, hsz⟩
  room b hb hw := by
    cases hw₁ : (w b).2 with
    | true =>
        rw [all_cons_of_true hw₁] at hw ⊢
        exact h'.room _ (h.keeps b hb).1 hw
    | false =>
        rw [all_cons_of_false hw₁]
        exact h.room b hb hw₁

lemma Emits.all_map {α : Type} {encode : α → Writer} {bytes : α → Bytes} {l : List α}
    (h : ∀ x ∈ l, Emits 0 (encode x) (bytes x)) :
    Emits 0 (.all (l.map encode)) (l.map bytes).flatten := by
  induction l with
  | nil => exact .nil
  | cons x l ih =>
      exact .cons (h x List.mem_cons_self) (ih fun y hy => h y (List.mem_cons_of_mem x hy))

lemma Stalls.all_map {α : Type} {encode : α → Writer} {l : List α}
    (h : ∀ x ∈ l, Stalls k (encode x)) : Stalls k (.all (l.map encode)) := by
  induction l with
  | nil => exact Stalls.nil.mono (Nat.zero_le k)
  | cons x l ih =>
      exact .cons (h x List.mem_cons_self) (ih fun y hy => h y (List.mem_cons_of_mem x hy))

end Writers

/-! ### Texts and byte strings -/

/-- `bencode_write_bytestring` in full. -/
def strBytes (data : Bytes) : Bytes := decimal data.length ++ [ascii ':'] ++ data

/-- `bencode_write_int` in full. -/
def intBytes (i : ℤ) : Bytes := [ascii 'i'] ++ decimalInt i ++ [ascii 'e']

/-- The key of an entry. -/
def keyBytes (c : Char) : Bytes := strBytes [ascii c]

/-- An entry of a dictionary. -/
def entryBytes (c : Char) (value : Bytes) : Bytes := keyBytes c ++ value

/-- The version entry. -/
def versionBytes : Bytes := entryBytes 'v' (intBytes 0)

section Leaves

variable {data text : Bytes} {k : ℕ}

lemma bufferWrite_of_le {b : Buffer} (h : data.length ≤ b.sizeLeft) :
    bufferWrite data b = ((b.store data).skip data.length, true) := if_pos h

lemma bufferWrite_of_lt {b : Buffer} (h : b.sizeLeft < data.length) :
    bufferWrite data b = (b, false) := if_neg (not_le.mpr h)

lemma wrote_bufferWrite {b : Buffer} (hb : b.Inside) (h : data.length ≤ b.sizeLeft) :
    b.Wrote data (bufferWrite data b).1 := by
  have hwrote := wrote_store hb h []
  rw [List.append_nil] at hwrote
  rwa [bufferWrite_of_le h]

lemma le_of_bufferWrite {b : Buffer} (h : (bufferWrite data b).2 = true) :
    data.length ≤ b.sizeLeft := by
  by_contra hlt
  rw [bufferWrite_of_lt (not_le.mp hlt)] at h
  cases h

lemma emits_bufferWrite (data : Bytes) : Emits 0 (bufferWrite data) data where
  done _ hb hw := .inl (wrote_bufferWrite hb (le_of_bufferWrite hw))
  fits b hb h := by
    refine ⟨?_, wrote_bufferWrite hb h.le⟩
    rw [bufferWrite_of_le h.le]

lemma sure_bufferWrite (h : data ≠ []) : Sure (bufferWrite data) data where
  ne_nil := h
  fits_iff b _ := ⟨le_of_bufferWrite, fun hle => by rw [bufferWrite_of_le hle]⟩
  wrote b hb hw := wrote_bufferWrite hb (le_of_bufferWrite hw)

lemma stalls_bufferWrite (h : data.length ≤ k + 1) : Stalls k (bufferWrite data) where
  keeps b hb := by
    by_cases hle : data.length ≤ b.sizeLeft
    · exact ⟨(wrote_bufferWrite hb hle).inside, (wrote_bufferWrite hb hle).sz⟩
    · rw [bufferWrite_of_lt (not_le.mp hle)]
      exact ⟨hb, rfl⟩
  room b hb hw := by
    have hlt : b.sizeLeft < data.length := by
      by_contra hle
      rw [bufferWrite_of_le (not_lt.mp hle)] at hw
      cases hw
    rw [bufferWrite_of_lt hlt]
    exact Nat.le_of_lt_succ (hlt.trans_le h)

/-- The buffer after `vsnprintf`. -/
def formatted (text : Bytes) (b : Buffer) : Buffer :=
  if b.sizeLeft = 0 then b else b.store (text.take (b.sizeLeft - 1) ++ [0])

lemma bufferWritef_of_le {b : Buffer} (hne : text ≠ []) (h : text.length ≤ b.sizeLeft) :
    bufferWritef text b = ((formatted text b).skip text.length, true) := by
  rw [bufferWritef, if_neg hne, if_neg (not_lt.mpr h)]
  rfl

lemma bufferWritef_of_lt {b : Buffer} (hne : text ≠ []) (h : b.sizeLeft < text.length) :
    bufferWritef text b = (formatted text b, false) := by
  rw [bufferWritef, if_neg hne, if_pos h]
  rfl

lemma formatted_cur (text : Bytes) (b : Buffer) : (formatted text b).cur = b.cur := by
  rw [formatted]
  split_ifs <;> rfl

lemma formatted_sz (text : Bytes) (b : Buffer) : (formatted text b).sz = b.sz := by
  rw [formatted]
  split_ifs <;> rfl

lemma formatted_inside {b : Buffer} (hb : b.Inside) : (formatted text b).Inside := by
  rw [Inside, formatted_cur, formatted_sz]
  exact hb

/-- With room for the terminator the text is complete. -/
lemma wrote_formatted {b : Buffer} (hb : b.Inside) (h : text.length < b.sizeLeft) :
    b.Wrote text ((formatted text b).skip text.length) := by
  rw [formatted, if_neg (by omega), List.take_of_length_le (by omega)]
  exact wrote_store hb h.le [0]

/-- A text that fits exactly leaves no room. -/
lemma short_formatted {b : Buffer} (h : b.sizeLeft = text.length) (hb : b.Inside) :
    b.Short 0 ((formatted text b).skip text.length) := by
  have hin : b.cur ≤ b.sz := hb
  have hleft : b.sz - b.cur = text.length := h
  have hcur : ((formatted text b).skip text.length).cur = b.cur + text.length :=
    congrArg (· + text.length) (formatted_cur text b)
  have hsz : ((formatted text b).skip text.length).sz = b.sz := formatted_sz text b
  refine ⟨?_, hsz, ?_⟩
  · rw [Inside, hcur, hsz]
    omega
  · rw [Buffer.sizeLeft, hcur, hsz]
    omega

lemma le_of_bufferWritef {b : Buffer} (hne : text ≠ []) (h : (bufferWritef text b).2 = true) :
    text.length ≤ b.sizeLeft := by
  by_contra hlt
  rw [bufferWritef_of_lt hne (not_le.mp hlt)] at h
  cases h

lemma emits_bufferWritef (hne : text ≠ []) : Emits 0 (bufferWritef text) text where
  done b hb hw := by
    have hle := le_of_bufferWritef hne hw
    rw [bufferWritef_of_le hne hle]
    rcases hle.lt_or_eq with hlt | heq
    · exact .inl (wrote_formatted hb hlt)
    · exact .inr (short_formatted heq.symm hb)
  fits b hb h := by
    rw [bufferWritef_of_le hne h.le]
    exact ⟨rfl, wrote_formatted hb h⟩

lemma stalls_bufferWritef (hne : text ≠ []) (h : text.length ≤ k + 1) :
    Stalls k (bufferWritef text) where
  keeps b hb := by
    rcases lt_or_ge b.sizeLeft text.length with hlt | hle
    · rw [bufferWritef_of_lt hne hlt]
      exact ⟨formatted_inside hb, formatted_sz text b⟩
    · rw [bufferWritef_of_le hne hle]
      rcases hle.lt_or_eq with hlt | heq
      · exact ⟨(wrote_formatted hb hlt).inside, (wrote_formatted hb hlt).sz⟩
      · exact ⟨(short_formatted heq.symm hb).inside, (short_formatted heq.symm hb).sz⟩
  room b hb hw := by
    have hlt : b.sizeLeft < text.length := by
      by_contra hle
      rw [bufferWritef_of_le hne (not_lt.mp hle)] at hw
      cases hw
    rw [bufferWritef_of_lt hne hlt, Buffer.sizeLeft, formatted_cur, formatted_sz]
    exact Nat.le_of_lt_succ (hlt.trans_le h)

lemma emits_writeBytestring (data : Bytes) : Emits 0 (writeBytestring data) (strBytes data) := by
  have hne : decimal data.length ++ [ascii ':'] ≠ [] :=
    List.append_ne_nil_of_right_ne_nil _ (by simp)
  have h := Emits.cons (emits_bufferWritef hne) (.cons (emits_bufferWrite data) .nil)
  rwa [List.append_nil] at h

lemma stalls_writeBytestring (h : data.length ≤ k + 1) (hk : (decimal data.length).length ≤ k) :
    Stalls k (writeBytestring data) := by
  refine .cons (stalls_bufferWritef (by simp) ?_)
    (.cons (stalls_bufferWrite h) (Stalls.nil.mono (Nat.zero_le k)))
  rw [List.length_append]
  exact Nat.succ_le_succ hk

lemma emits_writeInt (i : ℤ) : Emits 0 (writeInt i) (intBytes i) :=
  emits_bufferWritef (by simp)

lemma stalls_writeInt {i : ℤ} (h : (decimalInt i).length + 1 ≤ k) : Stalls k (writeInt i) :=
  stalls_bufferWritef (by simp) (by simp; omega)

lemma emits_writeUint64 (i : UInt64) : Emits 0 (writeUint64 i) (intBytes i.toInt64.toInt) :=
  emits_writeInt _

lemma emits_writeKey (c : Char) : Emits 0 (writeKey c) (keyBytes c) := emits_writeBytestring _

lemma stalls_writeKey (c : Char) (hk : 1 ≤ k) : Stalls k (writeKey c) :=
  stalls_writeBytestring (Nat.succ_le_succ (Nat.zero_le k)) hk

lemma emits_writeVersionEntry : Emits 0 writeVersionEntry versionBytes :=
  emits_bufferWritef (by decide)

lemma stalls_writeVersionEntry (hk : 5 ≤ k) : Stalls k writeVersionEntry := by
  have hlen : (decimal 1 ++ [ascii ':', ascii 'v', ascii 'i'] ++ decimal protoVersion.toNat ++
    [ascii 'e']).length = 6 := by decide
  exact stalls_bufferWritef (by simp) (by omega)

lemma sure_bencodeEnd : Sure (.all [bencodeEnd]) [ascii 'e'] := .single (sure_bufferWrite (by simp))

/-! ### Entries -/

variable {w : Writer} {ws : List Writer} {s t : Bytes} {m : ℕ}

lemma Sure.entry_short (c : Char) (h : Emits m w s) (h' : Sure (.all ws) t) (hm : m < t.length) :
    Sure (.all (writeKey c :: w :: ws)) (entryBytes c s ++ t) := by
  have hsure := Sure.cons (emits_writeKey c) (.cons_short h h' hm)
  rwa [← List.append_assoc] at hsure

lemma Sure.entry (c : Char) (h : Emits 0 w s) (h' : Sure (.all ws) t) :
    Sure (.all (writeKey c :: w :: ws)) (entryBytes c s ++ t) :=
  .entry_short c h h' (List.length_pos_of_ne_nil h'.ne_nil)

lemma Stalls.entry (c : Char) (hk : 1 ≤ k) (h : Stalls k w) (h' : Stalls k (.all ws)) :
    Stalls k (.all (writeKey c :: w :: ws)) := .cons (stalls_writeKey c hk) (.cons h h')

lemma emits_writeDictEntry (c : Char) (h : Emits 0 w s) :
    Emits 0 (writeDictEntry c w) (entryBytes c s) := by
  have hemits := Emits.cons (emits_writeKey c) (.cons h .nil)
  rwa [List.append_nil] at hemits

lemma emits_writeDictMsgType (c x : Char) :
    Emits 0 (writeDictMsgType c x) (entryBytes c (strBytes [ascii x])) :=
  emits_writeDictEntry c (emits_writeBytestring _)

lemma emits_writeDictInt (c : Char) (i : UInt64) :
    Emits 0 (writeDictInt c i) (entryBytes c (intBytes i.toInt64.toInt)) :=
  emits_writeDictEntry c (emits_writeUint64 i)

/-! ### Lists -/

/-- A list with these items. -/
def listBytes (items : List Bytes) : Bytes := [ascii 'l'] ++ (items.flatten ++ [ascii 'e'])

/-- Items in front of other writers. -/
lemma Sure.append_map {α : Type} {encode : α → Writer} {bytes : α → Bytes} {l : List α}
    (h : ∀ x ∈ l, Emits 0 (encode x) (bytes x)) (h' : Sure (.all ws) t) :
    Sure (.all (l.map encode ++ ws)) ((l.map bytes).flatten ++ t) := by
  induction l with
  | nil => exact h'
  | cons x l ih =>
      rw [List.map_cons, List.map_cons, List.flatten_cons, List.append_assoc, List.cons_append]
      exact .cons (h x List.mem_cons_self) (ih fun y hy => h y (List.mem_cons_of_mem x hy))

lemma sure_bencodeWriteList {α : Type} {encode : α → Writer} {bytes : α → Bytes} {l : List α}
    (h : ∀ x ∈ l, Emits 0 (encode x) (bytes x)) :
    Sure (bencodeWriteList encode l) (listBytes (l.map bytes)) := by
  have hsure := Sure.cons (emits_bufferWrite [ascii 'l']) (.append_map h sure_bencodeEnd)
  rw [bencodeWriteList, List.append_assoc]
  exact hsure

lemma emits_writeDictList {α : Type} {encode : α → Writer} {bytes : α → Bytes} {l : List α}
    (c : Char) (h : ∀ x ∈ l, Emits 0 (encode x) (bytes x)) :
    Emits 0 (writeDictList c encode l) (entryBytes c (listBytes (l.map bytes))) :=
  emits_writeDictEntry c (sure_bencodeWriteList h).emits

end Leaves

end Udap
