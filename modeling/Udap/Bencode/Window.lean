import Udap.Bencode.Codec

/-!
What the bencode readers look at.

The loops of `bencode_read_dict` and `bencode_read_list` test the size of the buffer before they
look at the next byte, but the test for the opening byte and the test for the closing byte behind
the loop do not.

* `Agree`: the same window with the same position, before any two memories.
* `LooksInside`: a reader that cannot tell such buffers apart.
* `readString_agree`, `looksInside_readInteger`: the readers of strings and integers are such.
* `readIn_agree_iff`: the readers of dictionaries and lists are exactly where the buffer does not
  end with an object that only the closing byte is missing of.
-/

namespace Udap

open ByteMem

namespace Buffer

/-- The same bytes in the window and the same position in it. What follows may differ. -/
structure Agree (b b' : Buffer) : Prop where
  cur : b.cur = b'.cur
  sz : b.sz = b'.sz
  inside : b.cur ≤ b.sz
  mem : ∀ i < b.sz, b.mem i = b'.mem i

/-- The buffer at another position. -/
def seek (b : Buffer) (c : ℕ) : Buffer := { b with cur := c }

@[simp]
lemma seek_cur (b : Buffer) (c : ℕ) : (b.seek c).cur = c := rfl

@[simp]
lemma seek_sz (b : Buffer) (c : ℕ) : (b.seek c).sz = b.sz := rfl

@[simp]
lemma seek_mem (b : Buffer) (c : ℕ) : (b.seek c).mem = b.mem := rfl

@[simp]
lemma seek_seek (b : Buffer) (c d : ℕ) : (b.seek c).seek d = b.seek d := rfl

lemma skip_eq_seek (b : Buffer) (n : ℕ) : b.skip n = b.seek (b.cur + n) := rfl

lemma seek_self (b : Buffer) : b.seek b.cur = b := rfl

end Buffer

open Buffer

section Agreement

variable {α : Type} {b b' : Buffer}

lemma Buffer.Agree.symm (h : Agree b b') : Agree b' b where
  cur := h.cur.symm
  sz := h.sz.symm
  inside := by
    rw [← h.cur, ← h.sz]
    exact h.inside
  mem i hi := (h.mem i (h.sz ▸ hi)).symm

lemma Buffer.Agree.trans {b'' : Buffer} (h : Agree b b') (h' : Agree b' b'') : Agree b b'' where
  cur := h.cur.trans h'.cur
  sz := h.sz.trans h'.sz
  inside := h.inside
  mem i hi := (h.mem i hi).trans (h'.mem i (h.sz ▸ hi))

lemma Buffer.Agree.seek (h : Agree b b') {c : ℕ} (hc : c ≤ b.sz) :
    Agree (b.seek c) (b'.seek c) where
  cur := rfl
  sz := h.sz
  inside := hc
  mem := h.mem

lemma Buffer.Agree.sizeLeft (h : Agree b b') : b.sizeLeft = b'.sizeLeft := by
  rw [Buffer.sizeLeft, Buffer.sizeLeft, h.cur, h.sz]

lemma Buffer.Agree.peek (h : Agree b b') (hc : b.cur < b.sz) : b.peek = b'.peek := by
  rw [Buffer.peek, Buffer.peek, ← h.cur]
  exact h.mem _ hc

lemma Buffer.Agree.bytes (h : Agree b b') {n : ℕ} (hn : b.cur + n ≤ b.sz) :
    b.bytes n = b'.bytes n := by
  refine List.map_congr_left fun i hi => ?_
  have hi := List.mem_range.mp hi
  rw [← h.cur]
  exact h.mem _ (by omega)

/-- Both fail, or both succeed at one position in the window. -/
inductive SameEnd (b b' : Buffer) : Option Buffer → Option Buffer → Prop
  | fail : SameEnd b b' none none
  | done (c : ℕ) (hc : c ≤ b.sz) : SameEnd b b' (some (b.seek c)) (some (b'.seek c))

/-- The same object and the same end. -/
structure SameResult (b b' : Buffer) (x y : α × Option Buffer) : Prop where
  object : x.1 = y.1
  buffer : SameEnd b b' x.2 y.2

/-- A reader that does not tell apart what lies behind the window. -/
def LooksInside (r : Reader α) : Prop := ∀ a b b', Agree b b' → SameResult b b' (r a b) (r a b')

lemma SameResult.failed (a : α) : SameResult b b' (a, none) (a, none) := ⟨rfl, .fail⟩

/-- A result from a later position is one from the first. -/
lemma SameResult.of_seek {x y : α × Option Buffer} {c : ℕ}
    (h : SameResult (b.seek c) (b'.seek c) x y) : SameResult b b' x y := by
  obtain ⟨a, x⟩ := x
  obtain ⟨a', y⟩ := y
  obtain ⟨rfl, hend⟩ := h
  refine ⟨rfl, ?_⟩
  cases hend with
  | fail => exact .fail
  | done d hd => exact .done d hd

/-- A result in which both succeed or both fail. -/
lemma SameResult.cases {x y : α × Option Buffer} (h : SameResult b b' x y) :
    (∃ a, x = (a, none) ∧ y = (a, none)) ∨
      ∃ a c, c ≤ b.sz ∧ x = (a, some (b.seek c)) ∧ y = (a, some (b'.seek c)) := by
  obtain ⟨a, x⟩ := x
  obtain ⟨a', y⟩ := y
  obtain ⟨rfl, hend⟩ := h
  cases hend with
  | fail => exact .inl ⟨a, rfl, rfl⟩
  | done c hc => exact .inr ⟨a, c, hc, rfl, rfl⟩

end Agreement

/-! ### Strings and integers -/

section Scalars

variable {b b' : Buffer}

/-- The loop looks at the byte behind the window and stops there all the same. -/
lemma readUntil_agree (h : Agree b b') (delim : UInt8) (n : ℕ) :
    ∃ str c, b.cur ≤ c ∧ c ≤ b.sz ∧ b.readUntil delim n = (str, b.seek c) ∧
      b'.readUntil delim n = (str, b'.seek c) := by
  induction n generalizing b b' with
  | zero =>
      refine ⟨[], b.cur, le_rfl, h.inside, rfl, ?_⟩
      rw [h.cur]
      rfl
  | succ n ih =>
      rw [Buffer.readUntil, Buffer.readUntil]
      -- the end of the window is tested as well as the delimiter, on either side
      by_cases hlast : b.cur = b.sz
      · have hlast' : b'.cur = b'.sz := by rw [← h.cur, ← h.sz, hlast]
        rw [if_pos (.inr hlast), if_pos (.inr hlast')]
        refine ⟨[], b.cur, le_rfl, h.inside, rfl, ?_⟩
        rw [h.cur]
        rfl
      · have hlast' : b'.cur ≠ b'.sz := by rwa [← h.cur, ← h.sz]
        have hlt : b.cur < b.sz := lt_of_le_of_ne h.inside hlast
        rw [h.peek hlt]
        by_cases hdelim : b'.peek = delim
        · rw [if_pos (.inl hdelim), if_pos (.inl hdelim)]
          refine ⟨[], b.cur, le_rfl, h.inside, rfl, ?_⟩
          rw [h.cur]
          rfl
        · rw [if_neg (not_or.mpr ⟨hdelim, hlast⟩), if_neg (not_or.mpr ⟨hdelim, hlast'⟩)]
          have hnext : Agree (b.skip 1) (b'.skip 1) := by
            rw [skip_eq_seek, skip_eq_seek, ← h.cur]
            exact h.seek hlt
          obtain ⟨str, c, hc, hsz, h₁, h₂⟩ := ih hnext
          refine ⟨b'.peek :: str, c, ?_, hsz, ?_, ?_⟩
          · exact (Nat.le_succ _).trans hc
          · rw [h₁]
            rfl
          · rw [h₂]
            rfl

/-- Where a number ends, the delimiter or one more digit is still in the window. -/
lemma readNumber_agree (h : Agree b b') (delim : UInt8) (n : ℕ) :
    (b.readNumber delim n = none ∧ b'.readNumber delim n = none) ∨
      ∃ str c, b.cur ≤ c ∧ c < b.sz ∧ b.readNumber delim n = some (str, b.seek c) ∧
        b'.readNumber delim n = some (str, b'.seek c) := by
  obtain ⟨str, c, hc, hsz, h₁, h₂⟩ := readUntil_agree h delim n
  have hleft : (b.seek c).sizeLeft = (b'.seek c).sizeLeft := (h.seek hsz).sizeLeft
  rw [Buffer.readNumber, Buffer.readNumber, h₁, h₂]
  simp only [← hleft]
  split_ifs with hnone
  · exact .inl ⟨rfl, rfl⟩
  · rw [not_or] at hnone
    refine .inr ⟨str, c, hc, ?_, rfl, rfl⟩
    have := hnone.2
    rw [Buffer.sizeLeft, seek_cur, seek_sz] at this
    omega

lemma readUntil_le (delim : UInt8) (n : ℕ) (b : Buffer) :
    b.cur ≤ (b.readUntil delim n).2.cur ∧ (b.readUntil delim n).2.sz = b.sz := by
  induction n generalizing b with
  | zero => exact ⟨le_rfl, rfl⟩
  | succ n ih =>
      rw [Buffer.readUntil]
      split_ifs
      · exact ⟨le_rfl, rfl⟩
      · obtain ⟨hcur, hsz⟩ := ih (b.skip 1)
        exact ⟨(Nat.le_succ _).trans hcur, hsz⟩

/-- Behind the window no number ends. -/
lemma readNumber_behind {delim : UInt8} {n : ℕ} (h : b.sz < b.cur) :
    b.readNumber delim n = none := by
  obtain ⟨hcur, hsz⟩ := readUntil_le delim n b
  have hleft : (b.readUntil delim n).2.sizeLeft = 0 := by
    rw [Buffer.sizeLeft, hsz]
    omega
  rw [Buffer.readNumber]
  exact if_pos (.inr hleft)

/-- `bencode_read_string` looks only at the window. -/
lemma readString_agree (h : Agree b b') :
    (b.readString = none ∧ b'.readString = none) ∨
      ∃ str c, b.cur < c ∧ c ≤ b.sz ∧ b.readString = some (str, b.seek c) ∧
        b'.readString = some (str, b'.seek c) := by
  rw [Buffer.readString, Buffer.readString]
  obtain ⟨h₁, h₂⟩ | ⟨str, c, hc, hsz, h₁, h₂⟩ := readNumber_agree h (ascii ':') 9
  · rw [h₁, h₂]
    exact .inl ⟨rfl, rfl⟩
  · have hnext : Agree ((b.seek c).skip 1) ((b'.seek c).skip 1) := h.seek hsz
    rw [h₁, h₂]
    simp only
    rw [← hnext.sizeLeft]
    by_cases hneg : strtol str < 0
    · rw [if_pos hneg, if_pos hneg]
      exact .inl ⟨rfl, rfl⟩
    by_cases hshort : ((b.seek c).skip 1).sizeLeft < (strtol str).toNat
    · rw [if_neg hneg, if_neg hneg, if_pos hshort, if_pos hshort]
      exact .inl ⟨rfl, rfl⟩
    · rw [if_neg hneg, if_neg hneg, if_neg hshort, if_neg hshort]
      have hroom : c + 1 + (strtol str).toNat ≤ b.sz := by
        rw [Buffer.sizeLeft, skip_eq_seek, seek_cur, seek_sz, seek_cur, seek_sz] at hshort
        omega
      rw [hnext.bytes hroom]
      exact .inr ⟨_, c + 1 + (strtol str).toNat, by omega, hroom, rfl, rfl⟩

/-- `bencode_read_integer` looks only at the window: behind it the opening byte is found, but no
number. -/
lemma looksInside_readInteger : LooksInside Buffer.readInteger := by
  intro result b b' h
  rw [Buffer.readInteger, Buffer.readInteger]
  by_cases hlt : b.cur < b.sz
  · rw [h.peek hlt]
    split_ifs with hopen
    · exact .failed result
    · have hnext : Agree (b.skip 1) (b'.skip 1) := by
        rw [skip_eq_seek, skip_eq_seek, ← h.cur]
        exact h.seek hlt
      obtain ⟨h₁, h₂⟩ | ⟨str, c, -, hsz, h₁, h₂⟩ := readNumber_agree hnext (ascii 'e') 31
      · rw [h₁, h₂]
        exact .failed result
      · rw [h₁, h₂]
        simp only
        split_ifs
        · exact .failed _
        · exact ⟨rfl, .done (c + 1) hsz⟩
  · have hend : b.cur = b.sz := le_antisymm h.inside (not_lt.mp hlt)
    have hend' : b'.cur = b'.sz := by rw [← h.cur, ← h.sz, hend]
    have hnone : (b.skip 1).readNumber (ascii 'e') 31 = none :=
      readNumber_behind (by simp [skip, hend])
    have hnone' : (b'.skip 1).readNumber (ascii 'e') 31 = none :=
      readNumber_behind (by simp [skip, hend'])
    rw [hnone, hnone']
    split_ifs
    · exact .failed result
    · exact .failed result
    · exact .failed result
    · exact .failed result

end Scalars

/-! ### Dictionaries and lists -/

section Loops

variable {α : Type}

/-- One round of `bencode_read_dict`: a key, and the call of `on_key` for it. -/
def entry (onKey : Option Bytes → Reader α) : Reader α := fun a b =>
  match b.readString with
  | none => (a, none)
  | some (key, b) => onKey (some key) a b

/-- The test of the loops for another round. -/
def More (b : Buffer) : Prop := b.sizeLeft ≠ 0 ∧ b.peek ≠ ascii 'e'

instance (b : Buffer) : Decidable (More b) := inferInstanceAs (Decidable (_ ∧ _))

/-- What both readers do behind their loop. -/
def afterLoop (stop : Reader α) : Reader α := fun a b =>
  if b.peek ≠ ascii 'e' then (a, none) else stop a (b.skip 1)

/-- The loop of `bencode_read_dict` and of `bencode_read_list` with at most `n` rounds: nothing
where it goes on after them. A callback need not move on, so that the bytes left are no bound. -/
def rounds (round stop : Reader α) : ℕ → α → Buffer → Option (α × Option Buffer)
  | n, a, b =>
      if More b then
        match n with
        | 0 => none
        | n + 1 =>
            match round a b with
            | (a, none) => some (a, none)
            | (a, some b) => rounds round stop n a b
      else some (afterLoop stop a b)

/-- Both readers, with at most `n` rounds. -/
def readIn (c : Char) (round stop : Reader α) (n : ℕ) (a : α) (b : Buffer) :
    Option (α × Option Buffer) :=
  if b.peek ≠ ascii c then some (a, none) else rounds round stop n a (b.skip 1)

/-- `bencode_read_dict`, with at most `n` rounds. -/
def readDictIn (onKey : Option Bytes → Reader α) : ℕ → α → Buffer → Option (α × Option Buffer) :=
  readIn 'd' (entry onKey) (onKey none)

/-- `bencode_read_list`, with at most `n` rounds. -/
def readListIn (onItem : Bool → Reader α) : ℕ → α → Buffer → Option (α × Option Buffer) :=
  readIn 'l' (onItem true) (onItem false)

section Steps

variable {round stop : Reader α} {n : ℕ} {a a₁ : α} {b b₁ : Buffer}

lemma rounds_end (h : ¬ More b) : rounds round stop n a b = some (afterLoop stop a b) := by
  cases n with
  | zero => rw [rounds, if_neg h]
  | succ n => rw [rounds, if_neg h]

lemma rounds_zero (h : More b) : rounds round stop 0 a b = none := by
  rw [rounds, if_pos h]

lemma rounds_fail (h : More b) (hr : round a b = (a₁, none)) :
    rounds round stop (n + 1) a b = some (a₁, none) := by
  rw [rounds, if_pos h, hr]

lemma rounds_next (h : More b) (hr : round a b = (a₁, some b₁)) :
    rounds round stop (n + 1) a b = rounds round stop n a₁ b₁ := by
  rw [rounds, if_pos h, hr]

end Steps

/-- What a loop with a bound on its rounds does in one of them. -/
def IsLoop (round stop : Reader α) (loop : ℕ → Reader α) : Prop :=
  ∀ m a b, loop (m + 1) a b =
    if More b then
      match round a b with
      | (a, none) => (a, none)
      | (a, some b) => loop m a b
    else afterLoop stop a b

lemma isLoop_dictLoop (onKey : Option Bytes → Reader α) :
    IsLoop (entry onKey) (onKey none) (dictLoop onKey) := by
  intro m a b
  by_cases hmore : More b
  · have hmore' : b.sizeLeft ≠ 0 ∧ b.peek ≠ ascii 'e' := hmore
    rw [dictLoop, if_pos hmore', if_pos hmore, entry]
    cases b.readString with
    | none => rfl
    | some kb => rfl
  · have hmore' : ¬ (b.sizeLeft ≠ 0 ∧ b.peek ≠ ascii 'e') := hmore
    rw [dictLoop, if_neg hmore', if_neg hmore]
    rfl

lemma isLoop_listLoop (onItem : Bool → Reader α) :
    IsLoop (onItem true) (onItem false) (listLoop onItem) := fun _ _ _ => rfl

/-- A loop that ends within fewer rounds ends so with a bound. -/
lemma IsLoop.eq_of_rounds {round stop : Reader α} {loop : ℕ → Reader α}
    (hloop : IsLoop round stop loop) {n m : ℕ} {a : α} {b : Buffer} {r : α × Option Buffer}
    (h : rounds round stop n a b = some r) (hn : n < m) : loop m a b = r := by
  induction n generalizing a b m with
  | zero =>
      obtain ⟨m, rfl⟩ := Nat.exists_eq_succ_of_ne_zero (Nat.ne_of_gt hn)
      by_cases hmore : More b
      · rw [rounds_zero hmore] at h
        cases h
      · rw [rounds_end hmore] at h
        rw [hloop, if_neg hmore]
        exact Option.some.inj h
  | succ n ih =>
      obtain ⟨m, rfl⟩ := Nat.exists_eq_succ_of_ne_zero (Nat.ne_of_gt (Nat.zero_lt_of_lt hn))
      by_cases hmore : More b
      · rw [hloop, if_pos hmore]
        rcases hr : round a b with ⟨a₁, _ | b₁⟩
        · rw [rounds_fail hmore hr] at h
          exact Option.some.inj h
        · rw [rounds_next hmore hr] at h
          exact ih h (Nat.lt_of_succ_lt_succ hn)
      · rw [rounds_end hmore] at h
        rw [hloop, if_neg hmore]
        exact Option.some.inj h

/-- Within as many rounds as bytes are left, `readDictIn` is `readDict`. -/
lemma readDict_eq_of_readDictIn {onKey : Option Bytes → Reader α} {n : ℕ} {a : α} {b : Buffer}
    {r : α × Option Buffer} (h : readDictIn onKey n a b = some r) (hn : n ≤ (b.skip 1).sizeLeft) :
    readDict onKey a b = r := by
  rw [readDictIn, readIn] at h
  rw [readDict]
  split_ifs at h ⊢ with hopen
  · exact Option.some.inj h
  · exact (isLoop_dictLoop onKey).eq_of_rounds h (Nat.lt_succ_of_le hn)

lemma readList_eq_of_readListIn {onItem : Bool → Reader α} {n : ℕ} {a : α} {b : Buffer}
    {r : α × Option Buffer} (h : readListIn onItem n a b = some r) (hn : n ≤ (b.skip 1).sizeLeft) :
    readList onItem a b = r := by
  rw [readListIn, readIn] at h
  rw [readList]
  split_ifs at h ⊢ with hopen
  · exact Option.some.inj h
  · exact (isLoop_listLoop onItem).eq_of_rounds h (Nat.lt_succ_of_le hn)

end Loops

/-! ### An object that is not closed -/

section Unclosed

variable {α : Type} {round stop : Reader α} {a : α} {b b' : Buffer}

/-- Both loops still run after their rounds, or both ended and with the same result. -/
inductive SameRun (b b' : Buffer) :
    Option (α × Option Buffer) → Option (α × Option Buffer) → Prop
  | running : SameRun b b' none none
  | ended {x y : α × Option Buffer} (h : SameResult b b' x y) : SameRun b b' (some x) (some y)

/-- The reader does not tell apart what lies behind the window of this buffer. -/
def RunsInside (f : ℕ → α → Buffer → Option (α × Option Buffer)) (a : α) (b : Buffer) : Prop :=
  ∀ b₁ b₂, Agree b b₁ → Agree b b₂ → ∀ n, SameRun b₁ b₂ (f n a b₁) (f n a b₂)

/-- A round of a loop that ends well. -/
def Round (round : Reader α) (x y : α × Buffer) : Prop :=
  More x.2 ∧ round x.1 x.2 = (y.1, some y.2)

/-- With `tail` behind the window, `stop` does something to the object or succeeds. -/
def Accepts (stop : Reader α) (a : α) (b : Buffer) (tail : Bytes) : Prop :=
  ∃ b', Agree b b' ∧ b'.bytes tail.length = tail ∧ stop a (b'.skip tail.length) ≠ (a, none)

/-- The buffer ends in front of the object, or with an object that only the closing byte is
missing of, and the callback accepts the end of the object. -/
def Unclosed (c : Char) (round stop : Reader α) (a : α) (b : Buffer) : Prop :=
  b.cur = b.sz ∧ Accepts stop a b [ascii c, ascii 'e'] ∨
    b.cur < b.sz ∧ b.peek = ascii c ∧
      ∃ a₁ b₁, Relation.ReflTransGen (Round round) (a, b.skip 1) (a₁, b₁) ∧ b₁.cur = b₁.sz ∧
        Accepts stop a₁ b₁ [ascii 'e']

lemma SameRun.of_seek {x y : Option (α × Option Buffer)} {c : ℕ}
    (h : SameRun (b.seek c) (b'.seek c) x y) : SameRun b b' x y := by
  cases h with
  | running => exact .running
  | ended h => exact .ended h.of_seek

lemma not_more_of_end (h : b.cur = b.sz) : ¬ More b := by
  intro hmore
  refine hmore.1 ?_
  rw [Buffer.sizeLeft, h, Nat.sub_self]

lemma Buffer.Agree.more (h : Agree b b') (hc : b.cur < b.sz) : More b ↔ More b' := by
  rw [More, More, h.sizeLeft, h.peek hc]

lemma Buffer.Agree.skip (h : Agree b b') (hc : b.cur < b.sz) : Agree (b.skip 1) (b'.skip 1) := by
  rw [skip_eq_seek, skip_eq_seek, ← h.cur]
  exact h.seek hc

/-- Behind the window only the callback decides. -/
lemma afterLoop_of_end (h : ¬ Accepts stop a b [ascii 'e']) (hb : Agree b b') :
    afterLoop stop a b' = (a, none) := by
  rw [afterLoop]
  by_cases hclose : b'.peek = ascii 'e'
  · rw [if_neg (not_not.mpr hclose)]
    by_contra hne
    refine h ⟨b', hb, ?_, hne⟩
    rw [← hclose]
    rfl
  · rw [if_pos hclose]

/-- In the window both tests behind the loop are made on the same byte. -/
lemma afterLoop_agree (hstop : LooksInside stop) (h : Agree b b') (hlt : b.cur < b.sz) :
    SameResult b b' (afterLoop stop a b) (afterLoop stop a b') := by
  rw [afterLoop, afterLoop, h.peek hlt]
  split_ifs with hclose
  · exact .failed a
  · have hnext := hstop a _ _ (h.skip hlt)
    rw [skip_eq_seek, skip_eq_seek, ← h.cur] at hnext
    rw [skip_eq_seek, skip_eq_seek, ← h.cur]
    exact hnext.of_seek

lemma Buffer.Agree.rfl (h : b.cur ≤ b.sz) : Agree b b :=
  ⟨Eq.refl _, Eq.refl _, h, fun _ _ => Eq.refl _⟩

/-- A loop that makes no further round ends in both memories. -/
lemma rounds_agree_end (hstop : LooksInside stop) (h : Agree b b') (hmore : ¬ More b)
    (hclosed : b.cur = b.sz → ¬ Accepts stop a b [ascii 'e']) (n : ℕ) :
    SameRun b b' (rounds round stop n a b) (rounds round stop n a b') := by
  rcases Nat.lt_or_ge b.cur b.sz with hlt | hge
  · rw [rounds_end hmore, rounds_end (mt (h.more hlt).mpr hmore)]
    exact .ended (afterLoop_agree hstop h hlt)
  · have hend : b.cur = b.sz := le_antisymm h.inside hge
    have hend' : b'.cur = b'.sz := by rw [← h.cur, ← h.sz, hend]
    rw [rounds_end hmore, rounds_end (not_more_of_end hend'),
      afterLoop_of_end (hclosed hend) (.rfl h.inside), afterLoop_of_end (hclosed hend) h]
    exact .ended (.failed a)

/-- A loop that does not come to the end of the window with an object to accept. -/
lemma rounds_agree (hround : LooksInside round) (hstop : LooksInside stop) (h : Agree b b')
    (hclosed : ∀ a₁ b₁, Relation.ReflTransGen (Round round) (a, b) (a₁, b₁) → b₁.cur = b₁.sz →
      ¬ Accepts stop a₁ b₁ [ascii 'e']) (n : ℕ) :
    SameRun b b' (rounds round stop n a b) (rounds round stop n a b') := by
  have hlt : ∀ {b : Buffer}, More b → b.cur < b.sz := fun hmore =>
    Nat.lt_of_sub_ne_zero hmore.1
  -- the induction is on the rounds, and what one of them reads is the same in both memories
  induction n generalizing a b b' with
  | zero =>
      by_cases hmore : More b
      · rw [rounds_zero hmore, rounds_zero ((h.more (hlt hmore)).mp hmore)]
        exact .running
      · exact rounds_agree_end hstop h hmore (hclosed a b .refl) 0
  | succ n ih =>
      by_cases hmore : More b
      · have hmore' := (h.more (hlt hmore)).mp hmore
        obtain ⟨a₁, h₁, h₂⟩ | ⟨a₁, c, hc, h₁, h₂⟩ := (hround a b b' h).cases
        · rw [rounds_fail hmore h₁, rounds_fail hmore' h₂]
          exact .ended (.failed a₁)
        · rw [rounds_next hmore h₁, rounds_next hmore' h₂]
          exact (ih (h.seek hc) fun a₂ b₂ hrun => hclosed a₂ b₂ (.head ⟨hmore, h₁⟩ hrun)).of_seek
      · exact rounds_agree_end hstop h hmore (hclosed a b .refl) (n + 1)

/-- The memory behind the window replaced. -/
def Buffer.behind (b : Buffer) (m : ℕ → UInt8) : Buffer :=
  { b with mem := fun i => if i < b.sz then b.mem i else m i }

lemma agree_behind (h : b.cur ≤ b.sz) (m : ℕ → UInt8) : Agree b (b.behind m) where
  cur := rfl
  sz := rfl
  inside := h
  mem _ hi := (if_pos hi).symm

/-- A round is the same before every memory, and so is where it ends. -/
lemma Round.before (hround : LooksInside round) {x y : α × Buffer} (h : Round round x y)
    (hx : x.2.cur ≤ x.2.sz) : y.2 = x.2.seek y.2.cur ∧ y.2.cur ≤ x.2.sz ∧
      ∀ b', Agree x.2 b' → Round round (x.1, b') (y.1, b'.seek y.2.cur) := by
  obtain ⟨hmore, hr⟩ := h
  have hlt : x.2.cur < x.2.sz := Nat.lt_of_sub_ne_zero hmore.1
  have hend : ∀ b', Agree x.2 b' → y.2 = x.2.seek y.2.cur ∧ y.2.cur ≤ x.2.sz ∧
      round x.1 b' = (y.1, some (b'.seek y.2.cur)) := by
    intro b' hb
    obtain ⟨a₁, h₁, -⟩ | ⟨a₁, c, hc, h₁, h₂⟩ := (hround x.1 x.2 b' hb).cases
    · rw [hr] at h₁
      cases h₁
    · rw [hr] at h₁
      obtain ⟨ha, hy⟩ := Prod.mk.inj h₁
      have hy := Option.some.inj hy
      rw [hy, h₂, ha]
      exact ⟨rfl, hc, rfl⟩
  obtain ⟨hy, hc, -⟩ := hend x.2 (.rfl hx)
  exact ⟨hy, hc, fun b' hb => ⟨(hb.more hlt).mp hmore, (hend b' hb).2.2⟩⟩

/-- A run of rounds is made before every memory, and it takes as many rounds there. -/
lemma rounds_of_reach (stop : Reader α) (hround : LooksInside round) {x y : α × Buffer}
    (hrun : Relation.ReflTransGen (Round round) x y) (hx : x.2.cur ≤ x.2.sz) :
    y.2 = x.2.seek y.2.cur ∧ ∃ n, ∀ b', Agree x.2 b' →
      Relation.ReflTransGen (Round round) (x.1, b') (y.1, b'.seek y.2.cur) ∧
      ∀ m, rounds round stop (n + m) x.1 b' = rounds round stop m y.1 (b'.seek y.2.cur) := by
  induction hrun using Relation.ReflTransGen.head_induction_on with
  | refl =>
      refine ⟨rfl, 0, fun b' h => ?_⟩
      rw [h.cur, seek_self]
      exact ⟨.refl, fun m => by rw [Nat.zero_add]⟩
  | @head x z hstep _ ih =>
      obtain ⟨hz, hc, hsame⟩ := hstep.before hround hx
      have hin : z.2.cur ≤ z.2.sz := by
        rw [hz]
        exact hc
      obtain ⟨hy, n, hn⟩ := ih hin
      rw [hz] at hy
      refine ⟨hy, n + 1, fun b' h => ?_⟩
      have hagree : Agree z.2 (b'.seek z.2.cur) := by
        have := h.seek hc
        rwa [← hz] at this
      obtain ⟨hreach, hrounds⟩ := hn _ hagree
      obtain ⟨hmore, hr⟩ := hsame b' h
      refine ⟨.head ⟨hmore, hr⟩ hreach, fun m => ?_⟩
      rw [show n + 1 + m = n + m + 1 by omega, rounds_next hmore hr]
      exact hrounds m

lemma SameRun.eq_failed {x : α × Option Buffer} {a : α}
    (h : SameRun b b' (some x) (some (a, none))) : x = (a, none) := by
  cases h with
  | ended h =>
      obtain ⟨a₁, h₁, h₂⟩ | ⟨a₁, c, -, -, h₂⟩ := h.cases
      · rw [h₁, h₂]
      · cases h₂

/-- A buffer at its end, with what makes an empty object behind it. -/
lemma readIn_of_end {c : Char} {n : ℕ} (hend : b.cur = b.sz) :
    readIn c round stop n a b =
      some (if b.bytes 2 = [ascii c, ascii 'e'] then stop a (b.skip 2) else (a, none)) := by
  have hmore : ¬ More (b.skip 1) := fun h => h.1 (by
    rw [Buffer.sizeLeft, skip_eq_seek, seek_cur, seek_sz]
    omega)
  have hbytes : b.bytes 2 = [b.peek, (b.skip 1).peek] := rfl
  rw [readIn, hbytes]
  by_cases hopen : b.peek = ascii c
  · rw [if_neg (not_not.mpr hopen), rounds_end hmore, afterLoop]
    by_cases hclose : (b.skip 1).peek = ascii 'e'
    · rw [if_neg (not_not.mpr hclose), hopen, hclose, if_pos rfl]
      rfl
    · rw [if_pos hclose, if_neg]
      intro h
      exact hclose (List.cons.inj (List.cons.inj h).2).1
  · rw [if_pos hopen, if_neg]
    intro h
    exact hopen (List.cons.inj h).1

lemma peek_behind (h : b.cur = b.sz) (x : UInt8) : (b.behind fun _ => x).peek = x :=
  if_neg (by rw [Buffer.behind, h]; exact lt_irrefl _)

/-- With an unclosed object the memory behind the window decides. -/
lemma not_runsInside_of_unclosed {c : Char} (hround : LooksInside round) (hb : b.cur ≤ b.sz)
    (h : Unclosed c round stop a b) : ¬ RunsInside (readIn c round stop) a b := by
  intro hsame
  rcases h with ⟨hend, b', hagree, htail, hstop⟩ |
    ⟨hlt, hopen, a₁, b₁, hreach, hend, b', hagree, htail, hstop⟩
  -- the object would begin behind the window: there it is `ce`, or anything else
  · have hend' : b'.cur = b'.sz := by rw [← hagree.cur, ← hagree.sz, hend]
    have hother : (b.behind fun _ => ascii c + 1).cur = (b.behind fun _ => ascii c + 1).sz := hend
    have hne : (b.behind fun _ => ascii c + 1).bytes 2 ≠ [ascii c, ascii 'e'] := by
      intro heq
      have hfirst : (b.behind fun _ => ascii c + 1).peek = ascii c := (List.cons.inj heq).1
      rw [peek_behind hend] at hfirst
      have hall : ∀ x : UInt8, x + 1 ≠ x := by
        rintro ⟨x⟩
        revert x
        decide
      exact hall _ hfirst
    have hrun := hsame b' _ hagree (agree_behind hb fun _ => ascii c + 1) 0
    rw [readIn_of_end hend', readIn_of_end hother] at hrun
    rw [if_pos (show b'.bytes 2 = _ from htail), if_neg hne] at hrun
    exact hstop hrun.eq_failed
  · -- the rounds are made before both memories, and then the next byte decides
    obtain ⟨hb₁, n, hn⟩ := rounds_of_reach stop hround hreach hlt
    have hb₁ : b₁ = b.seek b₁.cur := hb₁
    have hsz : b₁.sz = b.sz := by
      rw [hb₁]
      rfl
    have hread : ∀ b'', Agree b b'' → readIn c round stop n a b'' =
        some (afterLoop stop a₁ (b''.seek b₁.cur)) := by
      intro b'' hb''
      have hlast : (b''.seek b₁.cur).cur = (b''.seek b₁.cur).sz := by
        rw [seek_cur, seek_sz, ← hb''.sz, hend, hsz]
      have hrounds : rounds round stop n a (b''.skip 1) =
          rounds round stop 0 a₁ (b''.seek b₁.cur) :=
        (hn (b''.skip 1) (hb''.skip hlt)).2 0
      rw [readIn, ← hb''.peek hlt, if_neg (not_not.mpr hopen), hrounds,
        rounds_end (not_more_of_end hlast)]
    have hagree' : Agree b (b'.seek b.cur) := by
      have := hagree.seek (show b.cur ≤ b₁.sz by rw [hsz]; exact hb)
      rw [hb₁] at this
      exact this
    have hrun := hsame _ _ hagree' (agree_behind hb fun _ => 0) n
    rw [hread _ hagree', hread _ (agree_behind hb _), seek_seek] at hrun
    -- with a zero there the reader fails, with an `e` it stops
    have hzero : afterLoop stop a₁ ((b.behind fun _ => 0).seek b₁.cur) = (a₁, none) := by
      have hpeek : ((b.seek b₁.cur).behind fun _ => 0).peek = 0 :=
        peek_behind (by rw [seek_cur, seek_sz, hend, hsz]) 0
      have hne : ((b.behind fun _ => 0).seek b₁.cur).peek ≠ ascii 'e' := by
        intro heq
        rw [show ((b.behind fun _ => 0).seek b₁.cur).peek = 0 from hpeek] at heq
        exact absurd heq (by decide)
      rw [afterLoop, if_pos hne]
    have hclose : afterLoop stop a₁ (b'.seek b₁.cur) = stop a₁ (b'.skip 1) := by
      have hpeek : b'.peek = ascii 'e' := (List.cons.inj htail).1
      rw [hagree.cur, seek_self, afterLoop, if_neg (not_not.mpr hpeek)]
    rw [hzero, hclose] at hrun
    exact hstop hrun.eq_failed

/-- The readers of dictionaries and of lists look only at the window, except for an object that is
not closed. -/
lemma readIn_agree_iff {c : Char} (hround : LooksInside round) (hstop : LooksInside stop)
    (hb : b.cur ≤ b.sz) :
    RunsInside (readIn c round stop) a b ↔ ¬ Unclosed c round stop a b := by
  refine ⟨fun h hopen => not_runsInside_of_unclosed hround hb hopen h, fun h b₁ b₂ h₁ h₂ n => ?_⟩
  rcases Nat.lt_or_ge b.cur b.sz with hlt | hge
  · rw [readIn, readIn, ← h₁.peek hlt, ← h₂.peek hlt]
    by_cases hopen : b.peek = ascii c
    · rw [if_neg (not_not.mpr hopen), if_neg (not_not.mpr hopen)]
      have h₁₂ := h₁.symm.trans h₂
      have hlt₁ : b₁.cur < b₁.sz := by rwa [← h₁.cur, ← h₁.sz]
      have hclosed : ∀ a' b', Relation.ReflTransGen (Round round) (a, b₁.skip 1) (a', b') →
          b'.cur = b'.sz → ¬ Accepts stop a' b' [ascii 'e'] := by
        -- the run is one before the memory of `b` too
        rintro a' b' hreach hend ⟨b'', hb'', htail, hne⟩
        obtain ⟨hb', k, hk⟩ := rounds_of_reach stop hround hreach hlt₁
        have hb' : b' = b₁.seek b'.cur := hb'
        have hsz : b'.sz = b₁.sz := by
          rw [hb']
          rfl
        have hagree : Agree (b.seek b'.cur) b' := by
          rw [hb']
          exact h₁.seek (by rw [seek_cur, hend, hsz, h₁.sz])
        have hreach' := (hk (b.skip 1) (h₁.symm.skip hlt₁)).1
        refine h (.inr ⟨hlt, hopen, a', b.seek b'.cur, hreach', ?_, b'', hagree.trans hb'',
          htail, hne⟩)
        rw [seek_cur, seek_sz, hend, hsz, h₁.sz]
      have hrun := rounds_agree hround hstop (h₁₂.skip hlt₁) hclosed n
      rw [skip_eq_seek, skip_eq_seek, ← h₁₂.cur] at hrun
      rw [skip_eq_seek, skip_eq_seek, ← h₁₂.cur]
      exact hrun.of_seek
    · rw [if_pos hopen, if_pos hopen]
      exact .ended (.failed a)
  -- an empty window: the two bytes behind it are compared, and no object is open
  · have hend : b.cur = b.sz := le_antisymm hb hge
    have hfail : ∀ b', Agree b b' → readIn c round stop n a b' = some (a, none) := by
      intro b' hb'
      rw [readIn_of_end (by rw [← hb'.cur, ← hb'.sz, hend])]
      by_cases htail : b'.bytes 2 = [ascii c, ascii 'e']
      · rw [if_pos htail]
        by_contra hne
        exact h (.inl ⟨hend, b', hb', htail, fun heq => hne (congrArg some heq)⟩)
      · rw [if_neg htail]
    rw [hfail b₁ h₁, hfail b₂ h₂]
    exact .ended (.failed a)

end Unclosed

section Readers

variable {α : Type}

/-- A round of `bencode_read_dict` looks inside when `on_key` does. -/
lemma looksInside_entry {onKey : Option Bytes → Reader α} (h : ∀ key, LooksInside (onKey key)) :
    LooksInside (entry onKey) := by
  intro a b b' hb
  rw [entry, entry]
  obtain ⟨h₁, h₂⟩ | ⟨str, c, -, hc, h₁, h₂⟩ := readString_agree hb
  · rw [h₁, h₂]
    exact .failed a
  · rw [h₁, h₂]
    exact (h (some str) a _ _ (hb.seek hc)).of_seek

/-- The readers of strings and integers look only at the buffer they are given. The readers of
dictionaries and lists, with callbacks that do, look only at it exactly where it does not end
with an object that is not closed. -/
theorem readers_look_inside :
    (∀ b b', Agree b b' → (b.readString = none ∧ b'.readString = none) ∨
      ∃ str c, c ≤ b.sz ∧ b.readString = some (str, b.seek c) ∧
        b'.readString = some (str, b'.seek c)) ∧
    LooksInside Buffer.readInteger ∧
    (∀ onKey : Option Bytes → Reader α, (∀ key, LooksInside (onKey key)) → ∀ a b, b.cur ≤ b.sz →
      (RunsInside (readDictIn onKey) a b ↔ ¬ Unclosed 'd' (entry onKey) (onKey none) a b)) ∧
    (∀ onItem : Bool → Reader α, (∀ more, LooksInside (onItem more)) → ∀ a b, b.cur ≤ b.sz →
      (RunsInside (readListIn onItem) a b ↔ ¬ Unclosed 'l' (onItem true) (onItem false) a b)) := by
  refine ⟨fun b b' h => ?_, looksInside_readInteger, fun onKey h a b hb => ?_,
    fun onItem h a b hb => ?_⟩
  · obtain hnone | ⟨str, c, -, hc, hs⟩ := readString_agree h
    · exact .inl hnone
    · exact .inr ⟨str, c, hc, hs⟩
  · exact readIn_agree_iff (looksInside_entry h) (h none) hb
  · exact readIn_agree_iff (h true) (h false) hb

/-- A dictionary without entries, of which the last byte lies behind the buffer. -/
theorem open_dict_accepted : ¬ ∀ (onKey : Option Bytes → Reader Unit),
    (∀ key, LooksInside (onKey key)) → ∀ a b b', Agree b b' →
    SameResult b b' (readDict onKey a b) (readDict onKey a b') := by
  intro h
  let onKey : Option Bytes → Reader Unit := fun _ a b => (a, some b)
  have hkey : ∀ key, LooksInside (onKey key) := fun _ a b b' hb =>
    ⟨rfl, by
      have : SameEnd b b' (some (b.seek b.cur)) (some (b'.seek b.cur)) := .done b.cur hb.inside
      rwa [seek_self, hb.cur, seek_self] at this⟩
  have hagree : Agree (Buffer.ofBytes [ascii 'd'] fun _ => ascii 'e')
      (Buffer.ofBytes [ascii 'd'] fun _ => 0) := by
    refine ⟨rfl, rfl, Nat.zero_le _, fun i hi => ?_⟩
    obtain rfl : i = 0 := Nat.lt_one_iff.mp hi
    rfl
  have hsame := (h onKey hkey () _ _ hagree).cases
  have hfirst : (readDict onKey () (Buffer.ofBytes [ascii 'd'] fun _ => ascii 'e')).2.isSome =
    true := by decide
  have hsecond : (readDict onKey () (Buffer.ofBytes [ascii 'd'] fun _ => 0)).2.isSome =
    false := by decide
  obtain ⟨a, h₁, h₂⟩ | ⟨a, c, -, h₁, h₂⟩ := hsame
  · rw [h₁] at hfirst
    cases hfirst
  · rw [h₂] at hsecond
    cases hsecond

end Readers

end Udap
