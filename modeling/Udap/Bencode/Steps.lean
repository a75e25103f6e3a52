import Udap.Bencode.Window

/-!
The iterations of nested loops of the bencode readers.

A reader is run with a bound on the iterations of each of its loops, the ones in its callbacks
included, and with a log of what its iterations do. It stays without a result where a loop would go
on beyond the bound.

* `Log`: iterations begin at ever later positions of the window, those that succeed move on, and
  behind one that fails there are only failures of those around it.
* `Log.length_le`: as many iterations as there are bytes, at most.
* `Traces`: within as many iterations as bytes are left, the run is that of the reader and its log
  is as it should be.
* `Traces.dict`, `Traces.list`: both loops are such where their callbacks are.
-/

namespace Udap

open ByteMem

/-- What an iteration of some loop does. -/
inductive LoopEvent where
  /-- it begins at a position -/
  | enter (cur : ℕ)
  /-- it succeeds, with the position it began at and the one it leaves -/
  | step (cur next : ℕ)
  /-- it fails -/
  | abort
  deriving DecidableEq

namespace LoopEvent

/-- The positions where iterations begin, in the order of time. -/
def entered (l : List LoopEvent) : List ℕ :=
  l.filterMap fun
    | .enter c => some c
    | _ => none

/-- The moves of the iterations that succeed. -/
def stepped (l : List LoopEvent) : List (ℕ × ℕ) :=
  l.filterMap fun
    | .step c d => some (c, d)
    | _ => none

variable {l l' : List LoopEvent} {c d : ℕ}

@[simp]
lemma entered_append : entered (l ++ l') = entered l ++ entered l' := List.filterMap_append

@[simp]
lemma stepped_append : stepped (l ++ l') = stepped l ++ stepped l' := List.filterMap_append

@[simp]
lemma entered_nil : entered [] = [] := rfl

@[simp]
lemma stepped_nil : stepped [] = [] := rfl

@[simp]
lemma entered_enter : entered (.enter c :: l) = c :: entered l := rfl

@[simp]
lemma stepped_enter : stepped (.enter c :: l) = stepped l := rfl

@[simp]
lemma entered_step : entered (.step c d :: l) = entered l := rfl

@[simp]
lemma stepped_step : stepped (.step c d :: l) = (c, d) :: stepped l := rfl

@[simp]
lemma entered_abort : entered (.abort :: l) = entered l := rfl

@[simp]
lemma stepped_abort : stepped (.abort :: l) = stepped l := rfl

end LoopEvent

open LoopEvent

/-! ### Logs -/

/-- The log of a run between two positions, with the buffer it leaves where it succeeds. -/
structure Log (lo hi : ℕ) (l : List LoopEvent) (out : Option Buffer) : Prop where
  /-- iterations begin in the window -/
  inside : ∀ c ∈ entered l, lo ≤ c ∧ c < hi
  /-- each behind all that began before it -/
  increasing : (entered l).Pairwise (· < ·)
  /-- an iteration that succeeds moves on -/
  forward : ∀ s ∈ stepped l, s.1 < s.2
  /-- where one fails, so does every one around it, and nothing else is done -/
  aborts : ∃ before k, l = before ++ List.replicate k .abort ∧ .abort ∉ before ∧
    (entered l).length = (stepped l).length + k
  /-- a run that succeeds leaves a buffer behind all of this -/
  ended : ∀ b, out = some b → .abort ∉ l ∧ lo ≤ b.cur ∧ b.sz = hi ∧ ∀ c ∈ entered l, c < b.cur

section Logs

variable {lo hi c : ℕ} {l l' : List LoopEvent} {b : Buffer} {out : Option Buffer}

lemma Log.nil (h : ∀ b, out = some b → lo ≤ b.cur ∧ b.sz = hi) : Log lo hi [] out where
  inside _ hc := absurd hc List.not_mem_nil
  increasing := .nil
  forward _ hs := absurd hs List.not_mem_nil
  aborts := ⟨[], 0, rfl, List.not_mem_nil, rfl⟩
  ended b hb := by
    obtain ⟨hlo, hsz⟩ := h b hb
    exact ⟨List.not_mem_nil, hlo, hsz, fun _ hc => absurd hc List.not_mem_nil⟩

lemma Log.mono (h : Log lo hi l out) {lo' : ℕ} (hle : lo' ≤ lo) : Log lo' hi l out where
  inside c hc := ⟨hle.trans (h.inside c hc).1, (h.inside c hc).2⟩
  increasing := h.increasing
  forward := h.forward
  aborts := h.aborts
  ended b hb := by
    obtain ⟨hno, hlo, hsz, hlt⟩ := h.ended b hb
    exact ⟨hno, hle.trans hlo, hsz, hlt⟩

lemma Log.refused (h : Log lo hi l out) : Log lo hi l none where
  inside := h.inside
  increasing := h.increasing
  forward := h.forward
  aborts := h.aborts
  ended _ hb := by cases hb

/-- In a log without failures every iteration that began has succeeded. -/
lemma Log.balanced (h : Log lo hi l out) (hno : .abort ∉ l) :
    (entered l).length = (stepped l).length := by
  obtain ⟨before, k, hl, -, hcount⟩ := h.aborts
  cases k with
  | zero => exact hcount
  | succ k =>
      refine absurd ?_ hno
      rw [hl, List.replicate_succ]
      exact List.mem_append_right _ List.mem_cons_self

/-- One run after another. -/
lemma Log.append (h : Log lo hi l (some b)) (h' : Log b.cur hi l' out) :
    Log lo hi (l ++ l') out := by
  obtain ⟨hno, hlo, hsz, hlt⟩ := h.ended b rfl
  refine ⟨fun c hc => ?_, ?_, fun s hs => ?_, ?_, fun b' hb' => ?_⟩
  · rw [entered_append] at hc
    rcases List.mem_append.mp hc with hc | hc
    · exact h.inside c hc
    · exact ⟨hlo.trans (h'.inside c hc).1, (h'.inside c hc).2⟩
  · rw [entered_append]
    refine List.pairwise_append.mpr ⟨h.increasing, h'.increasing, fun c hc d hd => ?_⟩
    exact (hlt c hc).trans_le (h'.inside d hd).1
  · rw [stepped_append] at hs
    rcases List.mem_append.mp hs with hs | hs
    · exact h.forward s hs
    · exact h'.forward s hs
  · obtain ⟨before, k, rfl, hbefore, hcount⟩ := h'.aborts
    have hbalanced := h.balanced hno
    refine ⟨l ++ before, k, (List.append_assoc ..).symm, ?_, ?_⟩
    · exact fun hmem => (List.mem_append.mp hmem).elim hno hbefore
    · rw [entered_append, stepped_append, List.length_append, List.length_append]
      omega
  · obtain ⟨hno', hlo', hsz', hlt'⟩ := h'.ended b' hb'
    refine ⟨fun hmem => (List.mem_append.mp hmem).elim hno hno', hlo.trans hlo', hsz', ?_⟩
    intro c hc
    rw [entered_append] at hc
    rcases List.mem_append.mp hc with hc | hc
    · exact (hlt c hc).trans_le hlo'
    · exact hlt' c hc

/-- An iteration begins in front of those in it. -/
lemma Log.inside_enter (h : Log (c + 1) hi l out) (hc : c < hi) :
    ∀ d ∈ c :: entered l, c ≤ d ∧ d < hi := by
  intro d hd
  rcases List.mem_cons.mp hd with rfl | hd
  · exact ⟨le_rfl, hc⟩
  · exact ⟨Nat.le_of_succ_le (h.inside d hd).1, (h.inside d hd).2⟩

lemma Log.increasing_enter (h : Log (c + 1) hi l out) : (c :: entered l).Pairwise (· < ·) :=
  List.pairwise_cons.mpr ⟨fun d hd => (h.inside d hd).1, h.increasing⟩

/-- An iteration that succeeds, around what is done in it. -/
lemma Log.step (h : Log (c + 1) hi l (some b)) (hc : c < hi) :
    Log c hi (.enter c :: (l ++ [.step c b.cur])) (some b) := by
  obtain ⟨hno, hlo, hsz, hlt⟩ := h.ended b rfl
  have hbalanced := h.balanced hno
  have hentered : entered (.enter c :: (l ++ [.step c b.cur])) = c :: entered l := by simp
  have habort : .abort ∉ LoopEvent.enter c :: (l ++ [.step c b.cur]) := by simp [hno]
  refine ⟨?_, ?_, fun s hs => ?_, ?_, fun b' hb' => ?_⟩
  · rw [hentered]
    exact h.inside_enter hc
  · rw [hentered]
    exact h.increasing_enter
  · simp only [stepped_enter, stepped_append, stepped_step, stepped_nil, List.mem_append,
      List.mem_singleton] at hs
    rcases hs with hs | rfl
    · exact h.forward s hs
    · exact hlo
  · refine ⟨_, 0, (List.append_nil _).symm, habort, ?_⟩
    simp [hbalanced]
  · obtain rfl := Option.some.inj hb'
    refine ⟨habort, Nat.le_of_succ_le hlo, hsz, fun d hd => ?_⟩
    rw [hentered] at hd
    rcases List.mem_cons.mp hd with rfl | hd
    · exact hlo
    · exact hlt d hd

/-- An iteration that fails, around what is done in it. -/
lemma Log.abort (h : Log (c + 1) hi l none) (hc : c < hi) :
    Log c hi (.enter c :: (l ++ [.abort])) none := by
  have hentered : entered (.enter c :: (l ++ [.abort])) = c :: entered l := by simp
  have hstepped : stepped (.enter c :: (l ++ [.abort])) = stepped l := by simp
  refine ⟨?_, ?_, ?_, ?_, fun b' hb' => by cases hb'⟩
  · rw [hentered]
    exact h.inside_enter hc
  · rw [hentered]
    exact h.increasing_enter
  · rw [hstepped]
    exact h.forward
  · rw [hentered, hstepped]
    obtain ⟨before, k, hl, hbefore, hcount⟩ := h.aborts
    refine ⟨.enter c :: before, k + 1, ?_, ?_, ?_⟩
    · rw [hl, List.replicate_succ', List.append_assoc, List.cons_append]
    · simp [hbefore]
    · rw [List.length_cons, hcount, Nat.add_assoc]

/-- As many iterations as there are positions to begin at, at most. -/
lemma Log.length_le (h : Log lo hi l out) : (entered l).length ≤ hi - lo := by
  have hnodup : (entered l).Nodup := h.increasing.imp fun hlt => hlt.ne
  have hsub : (entered l).toFinset ⊆ Finset.Ico lo hi := fun c hc =>
    Finset.mem_Ico.mpr (h.inside c (List.mem_toFinset.mp hc))
  calc (entered l).length = (entered l).toFinset.card :=
        (List.toFinset_card_of_nodup hnodup).symm
    _ ≤ (Finset.Ico lo hi).card := Finset.card_le_card hsub
    _ = hi - lo := Nat.card_Ico lo hi

end Logs

/-! ### Runs -/

/-- A reader that is run with at most `n` iterations for each loop: its log and its result, or
nothing where a loop goes on. -/
def Traced (α : Type) := ℕ → α → Buffer → Option (List LoopEvent × α × Option Buffer)

namespace Traced

variable {α β : Type}

/-- A reader without loops. -/
def lift (r : Reader α) : Traced α := fun _ a b => some ([], r a b)

/-- `Reader.part`. -/
def part (get : α → β) (set : α → β → α) (t : Traced β) : Traced α := fun n a b =>
  match t n (get a) b with
  | none => none
  | some (l, x, b) => some (l, set a x, b)

/-- A round of a list that decodes an item in a variable of its own and keeps it. -/
def item (init : Buffer → β) (keep : α → β → Option α) (t : Traced β) : Traced α := fun n a b =>
  match t n (init b) b with
  | none => none
  | some (l, _, none) => some (l, a, none)
  | some (l, x, some b) =>
      match keep a x with
      | none => some (l, a, none)
      | some a => some (l, a, some b)

/-- A round of a dictionary. -/
def entry (onKey : Bytes → Traced α) : Traced α := fun n a b =>
  match b.readString with
  | none => some ([], a, none)
  | some (key, b) => onKey key n a b

/-- The loop of a dictionary or list, with at most `m` rounds. -/
def loop (round : Traced α) (stop : Reader α) (n : ℕ) :
    ℕ → α → Buffer → Option (List LoopEvent × α × Option Buffer)
  | m, a, b =>
      if More b then
        match m with
        | 0 => none
        | m + 1 =>
            match round n a b with
            | none => none
            | some (l, a, none) => some (.enter b.cur :: (l ++ [.abort]), a, none)
            | some (l, a, some b') =>
                match loop round stop n m a b' with
                | none => none
                | some (l', out) =>
                    some (.enter b.cur :: (l ++ [.step b.cur b'.cur]) ++ l', out)
      else some ([], afterLoop stop a b)

lemma loop_end {round : Traced α} {stop : Reader α} {n m : ℕ} {a : α} {b : Buffer}
    (h : ¬ More b) : loop round stop n m a b = some ([], afterLoop stop a b) := by
  cases m with
  | zero => rw [loop, if_neg h]
  | succ m => rw [loop, if_neg h]

/-- Both readers. -/
def readIn (c : Char) (round : Traced α) (stop : Reader α) : Traced α := fun n a b =>
  if b.peek ≠ ascii c then some ([], a, none) else loop round stop n n a (b.skip 1)

/-- `bencode_read_dict`. -/
def dict (onKey : Bytes → Traced α) (stop : Reader α) : Traced α := readIn 'd' (entry onKey) stop

/-- `bencode_read_list`, with items that are kept in a list. -/
def list (round : Traced (List α)) : Traced (List α) := readIn 'l' round fun l b => (l, some b)

/-- `BEncodeReadList`. -/
def bencodeReadList (x : α) (t : Traced α) : Traced (List α) :=
  list (.part (fun _ => x) (fun l x => l ++ [x]) t)

example : (bencodeReadList [] (bencodeReadList () (.lift .bad)) 3 []
    (.ofBytes [ascii 'l', ascii 'l', ascii 'x', ascii 'e'] fun _ => 0)).map Prod.fst =
      some [.enter 1, .enter 2, .abort, .abort] := by decide

end Traced

/-- With as many iterations as bytes are left, or more, the run has the result of the reader, and
always the same log. What is logged lies behind the position it is called at. -/
def Traces {α : Type} (t : Traced α) (r : Reader α) : Prop :=
  ∀ a b, ∃ l, (∀ n, b.sizeLeft ≤ n → t n a b = some (l, r a b)) ∧
    Log (b.cur + 1) b.sz l (r a b).2

/-- A reader that moves on in the buffer where it succeeds. -/
def MovesOn {α : Type} (r : Reader α) : Prop :=
  ∀ a b b', (r a b).2 = some b' → b.cur < b'.cur ∧ b'.sz = b.sz

/-- A reader that stays where it is. -/
def Stays {α : Type} (r : Reader α) : Prop := ∀ a b b', (r a b).2 = some b' → b' = b

/-! ### Strings and integers -/

section Scalars

variable {α β : Type} {b b' : Buffer}

lemma readNumber_le {delim : UInt8} {n : ℕ} {str : Bytes}
    (h : b.readNumber delim n = some (str, b')) : b.cur ≤ b'.cur ∧ b'.sz = b.sz := by
  rw [Buffer.readNumber] at h
  split_ifs at h
  have hmove := readUntil_le delim n b
  rwa [Option.some.inj h] at hmove

lemma readString_lt {str : Bytes} (h : b.readString = some (str, b')) :
    b.cur < b'.cur ∧ b'.sz = b.sz := by
  rw [Buffer.readString] at h
  cases hn : b.readNumber (ascii ':') 9 with
  | none => simp [hn] at h
  | some r =>
      obtain ⟨num, b₁⟩ := r
      obtain ⟨hcur, hsz⟩ := readNumber_le hn
      simp only [hn] at h
      split_ifs at h
      obtain rfl := (Prod.mk.inj (Option.some.inj h)).2
      exact ⟨Nat.lt_of_lt_of_le (Nat.lt_succ_of_le hcur) (Nat.le_add_right ..), hsz⟩

lemma movesOn_readInteger : MovesOn Buffer.readInteger := by
  intro i b b' h
  rw [Buffer.readInteger] at h
  split_ifs at h
  cases hn : (b.skip 1).readNumber (ascii 'e') 31 with
  | none => simp [hn] at h
  | some r =>
      obtain ⟨num, b₁⟩ := r
      obtain ⟨hcur, hsz⟩ := readNumber_le hn
      simp only [hn] at h
      split_ifs at h
      obtain rfl := Option.some.inj h
      exact ⟨Nat.lt_succ_of_le (Nat.le_of_succ_le hcur), hsz⟩

lemma movesOn_string (f : α → Bytes → Option α) : MovesOn (.string f) := by
  intro a b b' h
  rw [Reader.string] at h
  cases hs : b.readString with
  | none => simp [hs] at h
  | some r =>
      obtain ⟨str, b₁⟩ := r
      simp only [hs] at h
      cases hf : f a str with
      | none => simp [hf] at h
      | some a' =>
          simp only [hf, Option.some.injEq] at h
          exact h ▸ readString_lt hs

lemma movesOn_integer (f : α → UInt64 → Option α) : MovesOn (.integer f) := by
  intro a b b' h
  rw [Reader.integer] at h
  obtain ⟨i, ob, hr⟩ : ∃ i ob, b.readInteger 0 = (i, ob) := ⟨_, _, rfl⟩
  cases ob with
  | none => simp [hr] at h
  | some b₁ =>
      simp only [hr] at h
      cases hf : f a i with
      | none => simp [hf] at h
      | some a' =>
          simp only [hf, Option.some.injEq] at h
          exact movesOn_readInteger 0 b b' (by rw [hr, h])

lemma movesOn_version : MovesOn (Reader.version : Reader α) := movesOn_integer _

lemma movesOn_blob (n : ℕ) (f : α → Blob n → α) : MovesOn (.blob n f) := movesOn_string _

lemma movesOn_bad : MovesOn (Reader.bad : Reader α) := fun _ _ _ h => by cases h

lemma MovesOn.part {get : α → β} {set : α → β → α} {r : Reader β} (h : MovesOn r) :
    MovesOn (.part get set r) := fun a b b' hr => h (get a) b b' hr

end Scalars

/-! ### Dictionaries and lists -/

section Loops

variable {α β : Type} {t : Traced α} {r : Reader α} {stop : Reader α}

/-- A reader that has no loop on this buffer. -/
lemma traces_lift {a : α} {b : Buffer}
    (h : ∀ b', (r a b).2 = some b' → b.cur < b'.cur ∧ b'.sz = b.sz) :
    ∃ l, (∀ n, b.sizeLeft ≤ n → Traced.lift r n a b = some (l, r a b)) ∧
      Log (b.cur + 1) b.sz l (r a b).2 :=
  ⟨[], fun _ _ => rfl, .nil h⟩

lemma Traces.lift (h : MovesOn r) : Traces (.lift r) r := fun a b => traces_lift (h a b)

lemma Traces.part {t : Traced β} {r : Reader β} (h : Traces t r) {get : α → β}
    {set : α → β → α} : Traces (.part get set t) (.part get set r) := by
  intro a b
  obtain ⟨l, ht, hlog⟩ := h (get a) b
  refine ⟨l, fun n hn => ?_, hlog⟩
  rw [Traced.part, ht n hn]
  rfl

/-- An item that is kept, or refused although it was read. -/
lemma Traces.item {t : Traced β} {r : Reader β} (h : Traces t r) {init : Buffer → β}
    {keep : α → β → Option α} {round : Reader α}
    (hround : ∀ a b, round a b =
      match r (init b) b with
      | (_, none) => (a, none)
      | (x, some b) =>
          match keep a x with
          | none => (a, none)
          | some a => (a, some b)) : Traces (.item init keep t) round := by
  intro a b
  obtain ⟨l, ht, hlog⟩ := h (init b) b
  rw [hround]
  obtain ⟨x, ob, hr⟩ : ∃ x ob, r (init b) b = (x, ob) := ⟨_, _, rfl⟩
  rw [hr] at ht hlog
  simp only [hr]
  cases ob with
  | none => exact ⟨l, fun n hn => by simp only [Traced.item, ht n hn], hlog⟩
  | some b' =>
      cases hk : keep a x with
      | none =>
          simp only [hk]
          exact ⟨l, fun n hn => by simp only [Traced.item, ht n hn, hk], hlog.refused⟩
      | some a' =>
          simp only [hk]
          exact ⟨l, fun n hn => by simp only [Traced.item, ht n hn, hk], hlog⟩

/-- A key moves on, and so its entry is a round that does. -/
lemma Traces.entry {onKey : Option Bytes → Reader α} {onKeyT : Bytes → Traced α}
    (h : ∀ key, Traces (onKeyT key) (onKey (some key))) :
    Traces (.entry onKeyT) (entry onKey) := by
  intro a b
  rw [Udap.entry]
  cases hs : b.readString with
  | none =>
      exact ⟨[], fun n _ => by simp only [Traced.entry, hs], .nil fun _ hb' => by cases hb'⟩
  | some r =>
      obtain ⟨key, b₁⟩ := r
      obtain ⟨hcur, hsz⟩ := readString_lt hs
      obtain ⟨l, ht, hlog⟩ := h key a b₁
      rw [hsz] at hlog
      refine ⟨l, fun n hn => ?_, hlog.mono (Nat.succ_le_succ hcur.le)⟩
      have hleft : b₁.sizeLeft ≤ n := by
        rw [Buffer.sizeLeft] at hn ⊢
        omega
      simp only [Traced.entry, hs, ht n hleft]

/-- Behind the loop only the closing byte is read. -/
lemma log_afterLoop (hstop : Stays stop) (a : α) (b : Buffer) :
    Log b.cur b.sz [] (afterLoop stop a b).2 := by
  refine .nil fun b' hb' => ?_
  rw [afterLoop] at hb'
  split_ifs at hb'
  obtain rfl := hstop a (b.skip 1) b' hb'
  exact ⟨Nat.le_succ _, rfl⟩

/-- **The loops.** The bytes left bound the rounds, as each round that succeeds moves on. -/
lemma Traces.loop {f : ℕ → Reader α} (h : Traces t r) (hf : IsLoop r stop f) (hstop : Stays stop)
    {k : ℕ} {a : α} {b : Buffer} (hk : b.sizeLeft ≤ k) :
    ∃ l, (∀ n m, b.sizeLeft ≤ n → b.sizeLeft ≤ m →
        Traced.loop t stop n m a b = some (l, f (k + 1) a b)) ∧
      Log b.cur b.sz l (f (k + 1) a b).2 := by
  -- the induction is on the rounds that the reader has left, which the bytes left bound too
  induction k generalizing a b with
  | zero =>
      have hend : ¬ More b := fun hmore => hmore.1 (Nat.le_zero.mp hk)
      rw [hf, if_neg hend]
      exact ⟨[], fun n m _ _ => Traced.loop_end hend, log_afterLoop hstop a b⟩
  | succ k ih =>
      by_cases hmore : More b
      · have hlt : b.cur < b.sz := Nat.lt_of_sub_ne_zero hmore.1
        have hpos : 0 < b.sizeLeft := Nat.pos_of_ne_zero hmore.1
        obtain ⟨l, ht, hlog⟩ := h a b
        obtain ⟨a₁, ob, hr⟩ : ∃ a₁ ob, r a b = (a₁, ob) := ⟨_, _, rfl⟩
        rw [hr] at ht hlog
        rw [hf, if_pos hmore, hr]
        cases ob with
        | none =>
            refine ⟨_, fun n m hn hm => ?_, hlog.abort hlt⟩
            obtain ⟨m, rfl⟩ : ∃ j, m = j + 1 := ⟨m - 1, by omega⟩
            rw [Traced.loop, if_pos hmore]
            simp only [ht n hn]
        | some b₁ =>
            obtain ⟨-, hcur, hsz, -⟩ := hlog.ended b₁ rfl
            have hleft : b₁.sizeLeft + 1 ≤ b.sizeLeft := by
              rw [Buffer.sizeLeft, Buffer.sizeLeft]
              omega
            obtain ⟨l', ht', hlog'⟩ := ih (a := a₁) (b := b₁) (by omega)
            rw [hsz] at hlog'
            refine ⟨_, fun n m hn hm => ?_, (hlog.step hlt).append hlog'⟩
            obtain ⟨m, rfl⟩ : ∃ j, m = j + 1 := ⟨m - 1, by omega⟩
            rw [Traced.loop, if_pos hmore]
            simp only [ht n hn, ht' n m (by omega) (by omega)]
      · rw [hf, if_neg hmore]
        exact ⟨[], fun n m _ _ => Traced.loop_end hmore, log_afterLoop hstop a b⟩

/-- Both readers, around their loop. -/
lemma Traces.readIn {f : ℕ → Reader α} {whole : Reader α} {c : Char} (h : Traces t r)
    (hf : IsLoop r stop f) (hstop : Stays stop) (hwhole : ∀ a b, whole a b =
      if b.peek ≠ ascii c then (a, none) else f ((b.skip 1).sizeLeft + 1) a (b.skip 1)) :
    Traces (.readIn c t stop) whole := by
  intro a b
  rw [hwhole]
  by_cases hopen : b.peek ≠ ascii c
  · rw [if_pos hopen]
    exact ⟨[], fun n _ => by rw [Traced.readIn, if_pos hopen], .nil fun _ hb' => by cases hb'⟩
  · rw [if_neg hopen]
    obtain ⟨l, ht, hlog⟩ := h.loop hf hstop (a := a) (b := b.skip 1) le_rfl
    refine ⟨l, fun n hn => ?_, hlog⟩
    have hleft : (b.skip 1).sizeLeft ≤ n := (Nat.sub_le_sub_left (Nat.le_succ _) _).trans hn
    rw [Traced.readIn, if_neg hopen, ht n n hleft hleft]

lemma Traces.dict {onKey : Option Bytes → Reader α} {onKeyT : Bytes → Traced α}
    (h : ∀ key, Traces (onKeyT key) (onKey (some key))) (hstop : Stays (onKey none)) :
    Traces (.dict onKeyT (onKey none)) (readDict onKey) :=
  (Traces.entry h).readIn (isLoop_dictLoop onKey) hstop fun _ _ => rfl

lemma Traces.list {onItem : Bool → Reader (List β)} {roundT : Traced (List β)}
    (h : Traces roundT (onItem true)) (hstop : onItem false = fun l b => (l, some b)) :
    Traces (.list roundT) (readList onItem) := by
  have hloop := isLoop_listLoop onItem
  rw [hstop] at hloop
  exact h.readIn hloop (fun _ _ _ hb => (Option.some.inj hb).symm) fun _ _ => rfl

lemma Traces.bencodeReadList {t : Traced β} {r : Reader β} (h : Traces t r) (x : β) :
    Traces (.bencodeReadList x t) (bencodeReadList x r) :=
  .list h.part rfl

end Loops

end Udap
