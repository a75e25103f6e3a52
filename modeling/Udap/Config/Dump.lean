import Udap.Config.Ini

/-!
`Parser::dump`: a tree of sections is written as a file.

* `Neat`: the trees that can be written so that they are read back.
* `parse_dump`: the parser reads back what was written of a neat tree.
* `parse_dump_parse`: what the parser has built from a file is neat, but for sections without a name
  and keys that look like comments, so the file that `dump` writes of it says the same.
-/

namespace Udap

open ByteMem

namespace Ini

/-! ### What is written -/

/-- The name of a section in its brackets. -/
def bracketed (depth : ℕ) (sname : Bytes) : Bytes :=
  List.replicate depth (ascii '[') ++ sname ++ List.replicate depth (ascii ']')

/-- A pair with its sign. -/
def pairLine (p : Bytes × Bytes) : Bytes := p.1 ++ ascii '=' :: p.2

/-- `dump`. A section without a name gets no line of its own. -/
def dump (sname : Bytes) : Level → Bytes
  | ⟨l, sections⟩ =>
      (if sname = [] then [] else [ascii '\n']) ++ bracketed l.depth sname ++
        (if sname = [] then [] else [ascii '\n']) ++
        (l.values.flatMap fun p => pairLine p ++ [ascii '\n']) ++ dumpSections sections
where
  /-- The sections in a section. -/
  dumpSections : List (Bytes × Level) → Bytes
    | [] => []
    | (name, l) :: rest => dump name l ++ dumpSections rest

/-! ### Neat trees -/

/-- A string that `trim` leaves as it is. -/
structure Trimmed (s : Bytes) : Prop where
  head : ∀ c, s.head? = some c → isBlank c = false
  last : ∀ c, s.getLast? = some c → isBlank c = false

lemma Trimmed.trim_eq {s : Bytes} (h : Trimmed s) : trim s = s := by
  have hdrop : s.dropWhile isBlank = s := by
    cases s with
    | nil => rfl
    | cons c s => simp [h.head c rfl]
  rw [trim, hdrop, List.rdropWhile_eq_self_iff]
  intro hne
  simp [h.last _ (List.getLast?_eq_some_getLast hne)]

lemma trimmed_trim (s : Bytes) : Trimmed (trim s) where
  head c hc := by
    obtain ⟨rest, hrest⟩ := List.rdropWhile_prefix isBlank (l := s.dropWhile isBlank)
    have hhead : (s.dropWhile isBlank).head? = some c := by
      rw [trim] at hc
      rw [← hrest, List.head?_append, hc]
      rfl
    have := List.head?_dropWhile_not isBlank s
    rw [hhead] at this
    exact this
  last c hc := by
    have hne : trim s ≠ [] := by
      rintro hnil
      simp [hnil] at hc
    rw [List.getLast?_eq_some_getLast hne, Option.some_inj] at hc
    rw [← hc]
    exact Bool.eq_false_iff.mpr (List.rdropWhile_last_not isBlank _ hne)

/-- A name of a section that is read back. -/
structure NeatName (sname : Bytes) : Prop where
  ne_nil : sname ≠ []
  head : sname.head? ≠ some (ascii '[')
  line : ascii '\n' ∉ sname

/-- A pair that is read back. -/
structure NeatPair (p : Bytes × Bytes) : Prop where
  key : Trimmed p.1
  value : Trimmed p.2
  equals : ascii '=' ∉ p.1
  keyLine : ascii '\n' ∉ p.1
  valueLine : ascii '\n' ∉ p.2
  bracket : p.1.head? ≠ some (ascii '[')
  comment : p.1.head? ≠ some (ascii '#') ∧ p.1.head? ≠ some (ascii ';')

/-- A level whose depth is `depth`, neat in itself. -/
structure NeatLevel (depth : ℕ) (l : Level) : Prop where
  depth_eq : l.label.depth = depth
  pairs : ∀ p ∈ l.label.values, NeatPair p
  names : ∀ n ∈ l.children.map Prod.fst, NeatName n
  nodup : (l.children.map Prod.fst).Nodup

/-- A tree that is read back, with a root of the depth `depth`. -/
def Neat (depth : ℕ) (l : Level) : Prop :=
  ∀ q l', l.get? q = some l' → NeatLevel (depth + q.length) l'

/-! ### The text of a line -/

lemma trimmed_append {a b : UInt8} {s : Bytes} (ha : isBlank a = false) (hb : isBlank b = false) :
    Trimmed (a :: (s ++ [b])) where
  head c hc := by
    obtain rfl : a = c := by simpa using hc
    exact ha
  last c hc := by
    rw [← List.cons_append, List.getLast?_concat, Option.some_inj] at hc
    rwa [← hc]

/-- A section's line is read as it was written. -/
lemma readLine_bracketed {depth : ℕ} (hpos : 0 < depth) {sname : Bytes} (h : NeatName sname) :
    readLine (bracketed depth sname) = .header depth sname := by
  have hshape : ∃ s, bracketed depth sname = ascii '[' :: (s ++ [ascii ']']) := by
    obtain ⟨d, rfl⟩ : ∃ d, depth = d + 1 := ⟨depth - 1, by omega⟩
    refine ⟨List.replicate d (ascii '[') ++ sname ++ List.replicate d (ascii ']'), ?_⟩
    rw [bracketed, List.replicate_succ, List.replicate_succ']
    simp
  obtain ⟨s, hs⟩ := hshape
  have htrim : trim (bracketed depth sname) = bracketed depth sname := by
    rw [hs]
    exact (trimmed_append (by decide) (by decide)).trim_eq
  have hhead : (bracketed depth sname).head? = some (ascii '[') := by simp [hs]
  have hne : bracketed depth sname ≠ [] := by simp [hs]
  have hcomment : ¬(some (ascii '[') = some (ascii '#') ∨ some (ascii '[') = some (ascii ';')) := by
    decide
  -- the name stops the count of the brackets
  have htake : (bracketed depth sname).takeWhile (· = ascii '[') =
      List.replicate depth (ascii '[') := by
    rw [bracketed, List.append_assoc, List.takeWhile_append_of_pos (by simp)]
    cases sname with
    | nil => exact absurd rfl h.ne_nil
    | cons c cs =>
      have : c ≠ ascii '[' := fun hc => h.head (by simp [hc])
      simp [this]
  have hlength : (bracketed depth sname).length = 2 * depth + sname.length := by
    simp [bracketed]
    omega
  have hsline : parseSLine (bracketed depth sname) = (depth, sname) := by
    rw [parseSLine, htake, List.length_replicate, hlength, if_pos (by omega),
      Nat.add_sub_cancel_left, bracketed, List.append_assoc,
      List.drop_left' (List.length_replicate), List.take_left' rfl]
  simp only [readLine, hhead, htrim, hsline, if_neg hcomment, if_neg hne, if_true]

/-- A pair's line is read as it was written. -/
lemma readLine_pairLine {p : Bytes × Bytes} (h : NeatPair p) :
    readLine (pairLine p) = .value p := by
  obtain ⟨k, v⟩ := p
  -- neither end of the line is blank, since an empty key or value leaves the sign there
  have htrim : trim (pairLine (k, v)) = pairLine (k, v) := by
    refine Trimmed.trim_eq ⟨fun c hc => ?_, fun c hc => ?_⟩
    · cases k with
      | nil =>
        obtain rfl : ascii '=' = c := by simpa [pairLine] using hc
        decide
      | cons k ks => exact h.key.head c (by simpa [pairLine] using hc)
    · cases hv : v.getLast? with
      | none =>
        obtain rfl : ascii '=' = c := by
          simpa [pairLine, List.getLast?_eq_none_iff.mp hv] using hc
        decide
      | some d =>
        have : (pairLine (k, v)).getLast? = some d := by
          rw [pairLine, List.getLast?_append, List.getLast?_cons, hv]
          rfl
        exact h.value.last c (hv.trans (this.symm.trans hc))
  have hne : pairLine (k, v) ≠ [] := by simp [pairLine]
  have hhead : ∀ {a}, a ≠ ascii '=' → k.head? ≠ some a → (pairLine (k, v)).head? ≠ some a := by
    intro a ha hk
    cases k with
    | nil => simpa [pairLine] using Ne.symm ha
    | cons b bs => simpa [pairLine] using hk
  have hcomment : ¬((pairLine (k, v)).head? = some (ascii '#') ∨
      (pairLine (k, v)).head? = some (ascii ';')) :=
    not_or.mpr ⟨hhead (by decide) h.comment.1, hhead (by decide) h.comment.2⟩
  -- the first sign of the line is the one behind the key
  have hequals : ∀ c ∈ k, decide (c ≠ ascii '=') = true := by
    intro c hc
    rw [decide_eq_true_eq]
    rintro rfl
    exact h.equals hc
  have htake : (pairLine (k, v)).takeWhile (· ≠ ascii '=') = k := by
    rw [pairLine, List.takeWhile_append_of_pos hequals]
    simp
  have hdrop : (pairLine (k, v)).dropWhile (· ≠ ascii '=') = ascii '=' :: v := by
    rw [pairLine, List.dropWhile_append_of_pos hequals]
    simp
  have hmem : ¬ascii '=' ∉ pairLine (k, v) := by simp [pairLine]
  simp only [readLine, htrim, if_neg hcomment, if_neg hne, if_neg (hhead (by decide) h.bracket),
    if_neg hmem, htake, hdrop, List.drop_one, List.tail_cons, h.key.trim_eq, h.value.trim_eq]

/-! ### The lines of a tree -/

lemma getlinesFrom_line {a : Bytes} (ha : ascii '\n' ∉ a) (line rest : Bytes) :
    getlinesFrom line (a ++ ascii '\n' :: rest) = (line ++ a) :: getlines rest := by
  induction a generalizing line with
  | nil => simp [getlinesFrom, getlines]
  | cons c cs ih =>
    obtain ⟨hne, hcs⟩ : ascii '\n' ≠ c ∧ ascii '\n' ∉ cs := by simpa using ha
    rw [List.cons_append, getlinesFrom, if_neg (Ne.symm hne), ih hcs, List.append_assoc,
      List.singleton_append]

/-- A line, and the rest of the file. -/
lemma getlines_line {a : Bytes} (ha : ascii '\n' ∉ a) (rest : Bytes) :
    getlines (a ++ ascii '\n' :: rest) = a :: getlines rest :=
  getlinesFrom_line ha [] rest

/-- The lines of a section. -/
def dumpLines (sname : Bytes) : Level → List Bytes
  | ⟨l, sections⟩ =>
      (if sname = [] then [] else [[], bracketed l.depth sname]) ++ l.values.map pairLine ++
        sectionLines sections
where
  /-- The lines of the sections in a section. -/
  sectionLines : List (Bytes × Level) → List Bytes
    | [] => []
    | (name, l) :: rest => dumpLines name l ++ sectionLines rest

lemma dumpSections_eq (cs : List (Bytes × Level)) :
    dump.dumpSections cs = cs.flatMap fun c => dump c.1 c.2 := by
  induction cs with
  | nil => rfl
  | cons c cs ih => rw [dump.dumpSections, ih, List.flatMap_cons]

lemma sectionLines_eq (cs : List (Bytes × Level)) :
    dumpLines.sectionLines cs = cs.flatMap fun c => dumpLines c.1 c.2 := by
  induction cs with
  | nil => rfl
  | cons c cs ih => rw [dumpLines.sectionLines, ih, List.flatMap_cons]

/-- The pairs of a section, as lines. -/
lemma getlines_values {values : List (Bytes × Bytes)} (h : ∀ p ∈ values, NeatPair p)
    (rest : Bytes) :
    getlines ((values.flatMap fun p => pairLine p ++ [ascii '\n']) ++ rest) =
      values.map pairLine ++ getlines rest := by
  induction values with
  | nil => rfl
  | cons p values ih =>
    have hp := h p List.mem_cons_self
    have hline : ascii '\n' ∉ pairLine p := by
      simp only [pairLine, List.mem_append, List.mem_cons, not_or]
      exact ⟨hp.keyLine, by decide, hp.valueLine⟩
    rw [List.flatMap_cons, List.append_assoc, List.append_assoc, List.singleton_append,
      getlines_line hline, ih fun p hp => h p (List.mem_cons_of_mem _ hp), List.map_cons,
      List.cons_append]

lemma Neat.level {depth : ℕ} {l : Level} (h : Neat depth l) : NeatLevel depth l := h [] l rfl

/-- What is neat is neat below. -/
lemma Neat.child {depth : ℕ} {l : Level} (h : Neat depth l) {c : Bytes × Level}
    (hc : c ∈ l.children) : Neat (depth + 1) c.2 := by
  intro q l' hl'
  have hlookup := Rose.lookup_of_mem h.level.nodup hc
  have := h (c.1 :: q) l' (by rw [Rose.get?_cons, hlookup]; exact hl')
  rwa [List.length_cons, Nat.add_comm q.length, ← Nat.add_assoc] at this

/-- The text of a tree is its lines. -/
lemma getlines_dump (l : Level) :
    ∀ {depth : ℕ} {sname : Bytes}, Neat depth l → (sname = [] → depth = 0) →
      (sname ≠ [] → NeatName sname) →
      ∀ rest, getlines (dump sname l ++ rest) = dumpLines sname l ++ getlines rest := by
  induction l using Rose.induct with
  | h l ih =>
    intro depth sname hneat htop hname rest
    obtain ⟨data, sections⟩ := l
    have hlevel := hneat.level
    -- the subsections one after the other, by the induction over the tree
    have hsections : ∀ cs : List (Bytes × Level), (∀ c ∈ cs, c ∈ sections) → ∀ rest,
        getlines ((cs.flatMap fun c => dump c.1 c.2) ++ rest) =
          (cs.flatMap fun c => dumpLines c.1 c.2) ++ getlines rest := by
      intro cs hcs rest
      induction cs with
      | nil => rfl
      | cons c cs ihcs =>
        have hc := hcs c List.mem_cons_self
        have hcname := hlevel.names c.1 (List.mem_map_of_mem hc)
        rw [List.flatMap_cons, List.append_assoc,
          ih c hc (hneat.child hc) (fun hnil => absurd hnil hcname.ne_nil) (fun _ => hcname),
          ihcs fun c hc => hcs c (List.mem_cons_of_mem _ hc), List.flatMap_cons, List.append_assoc]
    have hbody : ∀ rest, getlines ((data.values.flatMap fun p => pairLine p ++ [ascii '\n']) ++
        ((sections.flatMap fun c => dump c.1 c.2) ++ rest)) =
          data.values.map pairLine ++ (sections.flatMap fun c => dumpLines c.1 c.2) ++
            getlines rest := by
      intro rest
      rw [getlines_values hlevel.pairs, hsections sections (fun _ => id), List.append_assoc]
    rw [dump, dumpLines, dumpSections_eq, sectionLines_eq]
    by_cases hnil : sname = []
    · have hdepth : data.depth = 0 := hlevel.depth_eq.trans (htop hnil)
      simpa [hnil, hdepth, bracketed] using hbody rest
    · have hline : ascii '\n' ∉ bracketed data.depth sname := by
        have := (hname hnil).line
        simp only [bracketed, List.mem_append, List.mem_replicate, not_or, not_and]
        exact ⟨⟨fun _ => by decide, this⟩, fun _ => by decide⟩
      rw [if_neg hnil, if_neg hnil]
      have h₁ := getlines_line (a := []) (by simp) (bracketed data.depth sname ++ ascii '\n' ::
        ((data.values.flatMap fun p => pairLine p ++ [ascii '\n']) ++
          ((sections.flatMap fun c => dump c.1 c.2) ++ rest)))
      rw [getlines_line hline, hbody] at h₁
      simpa using h₁

/-! ### What was written is read back -/

/-- The parser is at a place or below it. -/
structure Parser.In (parser : Parser) (p : List Bytes) : Prop where
  under : p <+: parser.l
  depth_eq : ((parser.top.get? parser.l).getD { label := {} }).label.depth = parser.l.length

/-- Some pairs are read. -/
lemma parse_values {values : List (Bytes × Bytes)} (h : ∀ p ∈ values, NeatPair p)
    (parser : Parser) :
    (values.map pairLine).foldlM Parser.parseLine parser = .ok { parser with
      top := parser.top.modify (Rose.relabel fun l => { l with values := l.values ++ values })
        parser.l
      ln := parser.ln + values.length } := by
  induction values generalizing parser with
  | nil =>
    simp only [List.append_nil, Rose.relabel_id, Rose.modify_id]
    rfl
  | cons p values ih =>
    have hline : parser.parseLine (pairLine p) =
        .ok (Parser.parseValue { parser with ln := parser.ln + 1 } p) := by
      simp only [Parser.parseLine, readLine_pairLine (h p List.mem_cons_self)]
    rw [List.map_cons, List.foldlM_cons, hline]
    refine (ih (fun p hp => h p (List.mem_cons_of_mem _ hp)) _).trans ?_
    simp only [Parser.parseValue, Rose.modify_modify, Rose.relabel, List.append_assoc,
      List.singleton_append, List.length_cons, Nat.add_assoc, Nat.add_comm 1]
    rfl

/-- The lines of a section are read back as the section, where there is none of its name. -/
def ReadBack (l : Level) : Prop :=
  ∀ (parser : Parser) (p : List Bytes) (sname : Bytes), Neat (p.length + 1) l → NeatName sname →
    parser.In p → parser.top.get? p ≠ none → parser.top.get? (p ++ [sname]) = none →
    ∃ parser', (dumpLines sname l).foldlM Parser.parseLine parser = .ok parser' ∧
      parser'.top = parser.top.modify (Rose.addChild sname l) p ∧ parser'.In (p ++ [sname])

/-- The sections of a section are read. -/
lemma parse_sections {cs : List (Bytes × Level)} (h : ∀ c ∈ cs, ReadBack c.2) (parser : Parser)
    {p : List Bytes} {s : Level} (hs : parser.top.get? p = some s)
    (hnodup : (s.children.map Prod.fst ++ cs.map Prod.fst).Nodup)
    (hneat : ∀ c ∈ cs, Neat (p.length + 1) c.2 ∧ NeatName c.1) (hin : parser.In p) :
    ∃ parser', (cs.flatMap fun c => dumpLines c.1 c.2).foldlM Parser.parseLine parser =
        .ok parser' ∧
      parser'.top =
        parser.top.modify (fun s => { s with children := s.children ++ cs }) p ∧
      parser'.In p := by
  induction cs generalizing parser s with
  | nil =>
    refine ⟨parser, rfl, ?_, hin⟩
    have hid : (fun s : Level => ({ s with children := s.children ++ [] } : Level)) =
        fun s => s := by
      funext s
      rw [List.append_nil]
      cases s
      rfl
    rw [hid, Rose.modify_id]
  | cons c cs ih =>
    have hnew : c.1 ∉ s.children.map Prod.fst := fun hmem =>
      List.disjoint_of_nodup_append hnodup hmem List.mem_cons_self
    have hlookup := Rose.lookup_eq_none_iff.mpr hnew
    obtain ⟨hc, hcname⟩ := hneat c List.mem_cons_self
    obtain ⟨parser₁, hrun₁, htop₁, hin₁⟩ := h c List.mem_cons_self parser p c.1 hc hcname hin
      (by simp [hs]) (by rw [Rose.get?_append, hs, Option.bind_some, Rose.get?_cons, hlookup]; rfl)
    have hs₁ : parser₁.top.get? p = some (Rose.addChild c.1 c.2 s) := by
      have := Rose.get?_modify (f := Rose.addChild c.1 c.2) (t := parser.top) (p := p) (q := [])
      rwa [List.append_nil, hs, Option.bind_some, Rose.get?_nil, ← htop₁] at this
    obtain ⟨parser', hrun, htop, hin'⟩ := ih (fun c hc => h c (List.mem_cons_of_mem _ hc))
      parser₁ hs₁ (by simpa [Rose.addChild] using hnodup)
      (fun c hc => hneat c (List.mem_cons_of_mem _ hc))
      ⟨(List.prefix_append _ _).trans hin₁.under, hin₁.depth_eq⟩
    refine ⟨parser', ?_, ?_, hin'⟩
    · rw [List.flatMap_cons, List.foldlM_append, hrun₁]
      exact hrun
    · rw [htop, htop₁, Rose.modify_modify]
      simp only [Rose.addChild, List.append_assoc, List.singleton_append]

/-- Every section is read back. -/
lemma readBack (l : Level) : ReadBack l := by
  induction l using Rose.induct with
  | h l ih =>
    intro parser p sname hneat hname hin hp hnone
    obtain ⟨data, sections⟩ := l
    have hlevel := hneat.level
    have hdepth : data.depth = p.length + 1 := hlevel.depth_eq
    have htake : parser.l.take p.length = p := (List.prefix_iff_eq_take.mp hin.under).symm
    have hle : p.length ≤ parser.l.length := hin.under.length_le
    -- the empty line and the line of the section
    let leaf : Level := { label := { depth := p.length + 1 } }
    let parser₁ : Parser :=
      { top := parser.top.modify (Rose.addChild sname leaf) p, l := p ++ [sname],
        ln := parser.ln + 2 }
    have hempty : parser.parseLine [] = .ok { parser with ln := parser.ln + 1 } := rfl
    have hheader : Parser.parseLine { parser with ln := parser.ln + 1 }
        (bracketed data.depth sname) = .ok parser₁ := by
      have hnew := Parser.parseSection_new { parser with ln := parser.ln + 2 } sname hin.depth_eq
        p.length.succ_pos (Nat.succ_le_succ hle) (by simpa [htake] using hp)
        (by simpa [htake] using hnone)
      rw [Nat.succ_sub_one, htake] at hnew
      rw [hdepth]
      simp only [Parser.parseLine, readLine_bracketed (Nat.succ_pos p.length) hname]
      exact hnew
    -- its pairs
    let parser₂ : Parser :=
      { top := parser.top.modify (Rose.addChild sname { label := data }) p, l := p ++ [sname],
        ln := parser.ln + 2 + data.values.length }
    have hvalues : (data.values.map pairLine).foldlM Parser.parseLine parser₁ = .ok parser₂ := by
      rw [parse_values hlevel.pairs, Rose.modify_modify_addChild (q := []) hnone]
      simp only [Rose.modify_nil, Rose.relabel, leaf, List.nil_append, ← hdepth]
      rfl
    have hs : parser₂.top.get? (p ++ [sname]) = some { label := data } :=
      Rose.get?_modify_addChild (q := []) hp hnone
    -- its sections
    obtain ⟨parser', hrun, htop, hin'⟩ := parse_sections ih parser₂ hs hlevel.nodup
      (fun c hc => ⟨by simpa using hneat.child hc, hlevel.names c.1 (List.mem_map_of_mem hc)⟩)
      ⟨List.prefix_rfl, by simp [parser₂, hs, hdepth]⟩
    refine ⟨parser', ?_, ?_, hin'⟩
    · have hlines : dumpLines sname ⟨data, sections⟩ = [] :: bracketed data.depth sname ::
          (data.values.map pairLine ++ sections.flatMap fun c => dumpLines c.1 c.2) := by
        rw [dumpLines, if_neg hname.ne_nil, sectionLines_eq]
        rfl
      rw [hlines, List.foldlM_cons, hempty]
      change (Parser.parseLine _ _ >>= _) = _
      rw [hheader]
      change List.foldlM _ _ _ = _
      rw [List.foldlM_append, hvalues]
      exact hrun
    · rw [htop, Rose.modify_modify_addChild (q := []) hnone]
      rfl

/-- A neat tree is read back. -/
theorem parse_dump {top : Level} (h : Neat 0 top) : parse (dump [] top) = .ok top := by
  obtain ⟨⟨depth, values⟩, sections⟩ := top
  have hlevel := h.level
  obtain rfl : depth = 0 := hlevel.depth_eq
  have htext : getlines (dump [] ⟨⟨0, values⟩, sections⟩) =
      values.map pairLine ++ sections.flatMap fun c => dumpLines c.1 c.2 := by
    have := getlines_dump ⟨⟨0, values⟩, sections⟩ h (fun _ => rfl) (fun hne => absurd rfl hne) []
    rw [List.append_nil] at this
    rw [this, dumpLines, sectionLines_eq]
    simp [getlines, getlinesFrom]
  let parser₂ : Parser := { top := { label := ⟨0, values⟩ }, l := [], ln := 0 + values.length }
  have hvalues : (values.map pairLine).foldlM Parser.parseLine ({} : Parser) = .ok parser₂ := by
    rw [parse_values hlevel.pairs]
    simp only [Rose.modify_nil, Rose.relabel, List.nil_append]
    rfl
  obtain ⟨parser', hrun, htop, -⟩ := parse_sections (fun c _ => readBack c.2) parser₂
    (p := []) rfl hlevel.nodup
    (fun c hc => ⟨h.child hc, hlevel.names c.1 (List.mem_map_of_mem hc)⟩)
    ⟨List.prefix_rfl, by simp [parser₂]⟩
  rw [parse, htext, List.foldlM_append, hvalues]
  change Parser.top <$> List.foldlM _ _ _ = _
  rw [hrun]
  exact congrArg Except.ok htop

/-! ### What is read is neat -/

/-- A line has no end of a line in it. -/
lemma getlinesFrom_clean (line text : Bytes) (h : ascii '\n' ∉ line) :
    ∀ l ∈ getlinesFrom line text, ascii '\n' ∉ l := by
  induction text generalizing line with
  | nil =>
    intro l hl
    rw [getlinesFrom] at hl
    split_ifs at hl
    · simp at hl
    · rwa [List.mem_singleton.mp hl]
  | cons c text ih =>
    intro l hl
    rw [getlinesFrom] at hl
    split_ifs at hl with hc
    · rcases List.mem_cons.mp hl with rfl | hl
      · exact h
      · exact ih [] (by simp) l hl
    · exact ih (line ++ [c]) (by simp [h, Ne.symm hc]) l hl

lemma mem_of_mem_trim {s : Bytes} {c : UInt8} (h : c ∈ trim s) : c ∈ s :=
  (List.dropWhile_sublist _).subset
    ((List.rdropWhile_prefix isBlank (s.dropWhile isBlank)).subset h)

/-- A name that is read has no bracket in front. -/
lemma parseSLine_head (line : Bytes) : (parseSLine line).2.head? ≠ some (ascii '[') := by
  intro hhead
  have hdrop : line.drop (line.takeWhile (· = ascii '[')).length =
      line.dropWhile (· = ascii '[') := by
    calc line.drop (line.takeWhile (· = ascii '[')).length
        = (line.takeWhile (· = ascii '[') ++ line.dropWhile (· = ascii '[')).drop
            (line.takeWhile (· = ascii '[')).length := by rw [List.takeWhile_append_dropWhile]
      _ = line.dropWhile (· = ascii '[') := List.drop_left
  have hmem : (line.dropWhile (· = ascii '[')).head? = some (ascii '[') := by
    rw [parseSLine, hdrop] at hhead
    revert hhead
    generalize line.dropWhile (· = ascii '[') = rest
    generalize (if 2 * _ ≤ line.length then _ else _) = n
    intro hhead
    cases n with
    | zero => simp at hhead
    | succ n => cases rest <;> simp_all
  have := List.head?_dropWhile_not (· = ascii '[') line
  rw [hmem] at this
  simp at this

/-- What does not start with a blank still starts the same way. -/
lemma head?_trim {s : Bytes} {c : UInt8} (hs : s.head? = some c) (hc : isBlank c = false) :
    (trim s).head? = some c := by
  cases s with
  | nil => simp at hs
  | cons a s =>
    obtain rfl : a = c := by simpa using hs
    have htrim : trim (a :: s) = (a :: s).rdropWhile isBlank := by
      rw [trim, List.dropWhile_cons_of_neg (by simp [hc])]
    obtain ⟨rest, hrest⟩ := List.rdropWhile_prefix isBlank (l := a :: s)
    rw [htrim]
    cases hr : (a :: s).rdropWhile isBlank with
    | nil =>
      rw [List.rdropWhile_eq_nil_iff] at hr
      simpa [hc] using hr a List.mem_cons_self
    | cons b bs =>
      rw [hr, List.cons_append, List.cons.injEq] at hrest
      rw [hrest.1, List.head?_cons]

/-- A name that is read is neat, unless it is empty. -/
lemma readLine_header {line : Bytes} (hline : ascii '\n' ∉ line) {depth : ℕ} {sname : Bytes}
    (h : readLine line = .header depth sname) (hne : sname ≠ []) : NeatName sname := by
  simp only [readLine] at h
  split_ifs at h
  obtain ⟨-, rfl⟩ := Line.header.inj h
  refine ⟨hne, parseSLine_head _, fun hmem => hline (mem_of_mem_trim ?_)⟩
  rw [parseSLine] at hmem
  exact List.mem_of_mem_drop (List.mem_of_mem_take hmem)

/-- A pair that is read is neat, unless it looks like a comment. -/
lemma readLine_value {line : Bytes} (hline : ascii '\n' ∉ line) {p : Bytes × Bytes}
    (h : readLine line = .value p) (hcomment : p.1.head? ≠ some (ascii '#') ∧
      p.1.head? ≠ some (ascii ';')) : NeatPair p := by
  simp only [readLine] at h
  split_ifs at h with _ hblank hhead
  obtain rfl := Line.value.inj h
  have hclean : ascii '\n' ∉ trim line := fun hmem => hline (mem_of_mem_trim hmem)
  refine ⟨trimmed_trim _, trimmed_trim _, ?_, ?_, ?_, ?_, hcomment⟩
  · intro hmem
    simpa using List.mem_takeWhile_imp (mem_of_mem_trim hmem)
  · exact fun hmem => hclean ((List.takeWhile_prefix _).subset (mem_of_mem_trim hmem))
  · exact fun hmem => hclean ((List.dropWhile_sublist _).subset
      (List.mem_of_mem_drop (mem_of_mem_trim hmem)))
  · intro hbracket
    cases hkey : (trim line).takeWhile (· ≠ ascii '=') with
    | nil =>
      rw [hkey] at hbracket
      exact absurd hbracket (by simp [trim])
    | cons c cs =>
      have hc : (trim line).head? = some c := by
        obtain ⟨rest, hrest⟩ := List.takeWhile_prefix (· ≠ ascii '=') (l := trim line)
        rw [← hrest, hkey]
        rfl
      have hkept := head?_trim (s := c :: cs) rfl ((trimmed_trim line).head c hc)
      rw [hkey, hkept] at hbracket
      exact hhead (hc.trans hbracket)

/-- What a scan has found is neat, but for names that are empty and keys that look like comments. -/
structure Scan.Tidy (s : Scan) : Prop where
  nodup : s.sections.Nodup
  names : ∀ p n, p ++ [n] ∈ s.sections → n ≠ [] → NeatName n
  pairs : ∀ e ∈ s.entries, e.2.1.head? ≠ some (ascii '#') ∧ e.2.1.head? ≠ some (ascii ';') →
    NeatPair e.2

lemma Scan.Tidy.step {s s' : Scan} (h : s.Tidy) {line : Bytes} (hline : ascii '\n' ∉ line)
    (hstep : s.line line = .ok s') : s'.Tidy := by
  simp only [Scan.line] at hstep
  split at hstep
  · cases hstep
    exact ⟨h.nodup, h.names, h.pairs⟩
  · next depth sname hread =>
    split_ifs at hstep with hdepth hmem
    cases hstep
    have hnodup : (s.sections ++ [s.current.take (depth - 1) ++ [sname]]).Nodup := by
      refine List.nodup_append.mpr ⟨h.nodup, by simp, fun q hq r hr heq => hmem ?_⟩
      rwa [← List.mem_singleton.mp hr, ← heq]
    refine ⟨hnodup, ?_, h.pairs⟩
    intro p n hp hne
    rcases List.mem_append.mp hp with hp | hp
    · exact h.names p n hp hne
    · obtain ⟨-, hn⟩ := List.append_inj' (List.mem_singleton.mp hp) rfl
      obtain rfl : n = sname := by simpa using hn
      exact readLine_header hline hread hne
  · next p hread =>
    cases hstep
    refine ⟨h.nodup, h.names, fun e he hcomment => ?_⟩
    rcases List.mem_append.mp he with he | he
    · exact h.pairs e he hcomment
    · obtain rfl := List.mem_singleton.mp he
      exact readLine_value hline hread hcomment
  · cases hstep

lemma Scan.Tidy.run {s s' : Scan} (h : s.Tidy) {lines : List Bytes}
    (hlines : ∀ l ∈ lines, ascii '\n' ∉ l) (hrun : lines.foldlM Scan.line s = .ok s') :
    s'.Tidy := by
  induction lines generalizing s with
  | nil =>
    cases hrun
    exact h
  | cons line lines ih =>
    rw [List.foldlM_cons] at hrun
    cases hstep : s.line line with
    | error e =>
      rw [hstep] at hrun
      cases hrun
    | ok s₁ =>
      rw [hstep] at hrun
      exact ih (h.step (hlines line List.mem_cons_self) hstep)
        (fun l hl => hlines l (List.mem_cons_of_mem _ hl)) hrun

/-- The scan of a file is tidy. -/
lemma scan_tidy {text : Bytes} {s : Scan} (h : scan text = .ok s) : s.Tidy := by
  refine Scan.Tidy.run ⟨by simp, ?_, by simp⟩ (getlinesFrom_clean [] text (by simp)) h
  intro p n hp
  simp at hp

lemma nameIn_eq_some_iff {path r : List Bytes} {n : Bytes} :
    Scan.nameIn path r = some n ↔ r = path ++ [n] := by
  rw [Scan.nameIn]
  constructor
  · intro h
    split_ifs at h with hdrop
    rw [← hdrop]
    exact (List.dropLast_append_getLast? n h).symm
  · rintro rfl
    simp

/-- What was parsed, written and parsed again is the same. -/
theorem parse_dump_parse {text : Bytes} {top : Level} (h : parse text = .ok top)
    (hnames : ∀ q l, top.get? q = some l → [] ∉ l.children.map Prod.fst)
    (hkeys : ∀ q l, top.get? q = some l → ∀ p ∈ l.label.values,
      p.1.head? ≠ some (ascii '#') ∧ p.1.head? ≠ some (ascii ';')) :
    parse (dump [] top) = .ok top := by
  refine parse_dump fun q l hl => ?_
  rcases ini_parse_scan text with ⟨top', s, hparse, hscan, hview⟩ | ⟨e, hparse, -⟩
  · obtain rfl : top' = top := by simpa [hparse] using h
    have htidy := scan_tidy hscan
    have hlq := hview q
    rw [Rose.view, hl, Option.map_some, Scan.view] at hlq
    split_ifs at hlq with hq
    obtain ⟨hlabel, hchildren⟩ := Prod.mk.inj (Option.some.inj hlq)
    refine ⟨?_, fun p hp => ?_, fun n hn => ?_, ?_⟩
    · rw [hlabel, Nat.zero_add]
    · have hcomment := hkeys q l hl p hp
      rw [hlabel] at hp
      obtain ⟨e, he, rfl⟩ := List.mem_map.mp hp
      exact htidy.pairs e (List.mem_of_mem_filter he) hcomment
    · have hne : n ≠ [] := fun hnil => hnames q l hl (hnil ▸ hn)
      rw [hchildren] at hn
      obtain ⟨r, hr, hrn⟩ := List.mem_filterMap.mp hn
      rw [nameIn_eq_some_iff] at hrn
      exact htidy.names q n (hrn ▸ hr) hne
    · rw [hchildren]
      refine htidy.nodup.filterMap fun r r' n hr hr' => ?_
      rw [nameIn_eq_some_iff.mp hr, nameIn_eq_some_iff.mp hr']
  · simp [hparse] at h

/-- A file with one section. -/
theorem parse_dump_parse_one :
    ∃ top, parse ("[a]\n k = v \n".toList.map ascii) = .ok top ∧
      parse (dump [] top) = .ok top := by
  let leaf : Level := { label := { depth := 1, values := [([ascii 'k'], [ascii 'v'])] } }
  let top : Level := { label := {}, children := [([ascii 'a'], leaf)] }
  have hplace : ∀ q l, top.get? q = some l → l = top ∨ l = leaf := by
    intro q l hl
    cases q with
    | nil => exact .inl (Option.some.inj hl).symm
    | cons n q =>
      by_cases hn : n = [ascii 'a']
      · subst hn
        cases q with
        | nil => exact .inr (Option.some.inj hl).symm
        | cons m q => simp [top, leaf] at hl
      · have hnot : n ∉ top.children.map Prod.fst := by simpa [top] using hn
        have hnone := Rose.lookup_eq_none_iff.mpr hnot
        rw [Rose.get?_cons, hnone] at hl
        cases hl
  have hparse : parse ("[a]\n k = v \n".toList.map ascii) = .ok top := rfl
  refine ⟨top, hparse, parse_dump_parse hparse ?_ ?_⟩
  · intro q l hl
    rcases hplace q l hl with rfl | rfl <;> simp [top, leaf]
  · intro q l hl
    obtain rfl | rfl := hplace q l hl
    · simp [top]
    · simp only [leaf]
      decide

end Ini

end Udap
