import Udap.Bencode.Codec
import Udap.Lib.Rose
import Mathlib.Data.List.DropRight

/-!
`ini::Parser`: a file of sections that are nested by the number of their brackets.

The parser follows pointers through a tree of levels. What a file says is simpler: every pair
belongs to the section that was named last, and a section belongs to the nearest one before it that
has one bracket less. `Scan` reads a file that way, without a tree.

* `Parser.Matches`: what the parser has built is what the scan has found.
* `ini_parse_scan`: for every file the parser and the scan fail alike, or the tree has the sections
  of the scan, with their pairs in the order of the file.
-/

namespace Udap

open ByteMem

namespace Ini

/-! ### Lines -/

/-- A byte that `trim` cuts off: `strchr` finds the byte that ends its string, too. -/
def isBlank (c : UInt8) : Bool :=
  c = ascii ' ' || c = ascii '\t' || c = ascii '\r' || c = ascii '\n' || c = 0

/-- `trim`. -/
def trim (s : Bytes) : Bytes := (s.dropWhile isBlank).rdropWhile isBlank

/-- What `std::getline` reads until it fails, after it has read `line` of the first line. -/
def getlinesFrom (line : Bytes) : Bytes → List Bytes
  | [] => if line = [] then [] else [line]
  | c :: text =>
      if c = ascii '\n' then line :: getlinesFrom [] text else getlinesFrom (line ++ [c]) text

/-- The lines of a file. -/
def getlines (text : Bytes) : List Bytes := getlinesFrom [] text

/-- `parseSLine`: the depth and the name of a section. -/
def parseSLine (line : Bytes) : ℕ × Bytes :=
  let depth := (line.takeWhile (· = ascii '[')).length
  -- below zero the count wraps around, and is more than there is left
  let count := if 2 * depth ≤ line.length then line.length - 2 * depth else line.length
  (depth, (line.drop depth).take count)

/-- What a line is to `parse`. -/
inductive Line
  | skip
  | header (depth : ℕ) (sname : Bytes)
  | value (p : Bytes × Bytes)
  | noEquals

/-- How `parse` tells lines apart. A comment starts where the line does, not after blanks. -/
def readLine (line : Bytes) : Line :=
  if line.head? = some (ascii '#') ∨ line.head? = some (ascii ';') then .skip
  else
    let line := trim line
    if line = [] then .skip
    else if line.head? = some (ascii '[') then .header (parseSLine line).1 (parseSLine line).2
    else if ascii '=' ∉ line then .noEquals
    else
      .value (trim (line.takeWhile (· ≠ ascii '=')), trim ((line.dropWhile (· ≠ ascii '=')).drop 1))

/-! ### The parser -/

/-- `Level`, but for its sections, in the order of `ordered_sections`. What `parent` points to is
known by the place in the tree. -/
structure LevelData where
  depth : ℕ := 0
  values : List (Bytes × Bytes) := []

/-- `Level`. -/
abbrev Level := Rose Bytes LevelData

/-- `Parser`, and the level that `parse` is at. -/
structure Parser where
  top : Level := { label := {} }
  /-- the names on the way from `top_` to the level `l` -/
  l : List Bytes := []
  ln : ℕ := 0

namespace Parser

variable (parser : Parser)

/-- `err`. -/
def err (s : String) : String := s ++ " on line #" ++ toString parser.ln

/-- `parse` meets the name of a section. -/
def parseSection (depth : ℕ) (sname : Bytes) : Except String Parser :=
  let l := (parser.top.get? parser.l).getD { label := {} }
  if l.label.depth + 1 < depth then .error (parser.err "section with wrong depth")
  else
    let parent :=
      if l.label.depth = depth - 1 then parser.l
      else List.dropLast^[l.label.depth - depth] parser.l.dropLast
    let place := parent ++ [sname]
    -- `sections[sname]` makes a level where there is none
    let top :=
      if (parser.top.get? place).isSome then parser.top
      else parser.top.modify (Rose.addChild sname { label := {} }) parent
    let lp := (top.get? place).getD { label := {} }
    if lp.label.depth ≠ 0 then .error (parser.err "duplicate section name on the same level")
    else
      .ok { parser with
        top := top.modify (Rose.relabel fun lp => { lp with depth := depth }) place
        l := place }

/-- `parse` meets a pair. -/
def parseValue (p : Bytes × Bytes) : Parser :=
  { parser with
    top := parser.top.modify (Rose.relabel fun l => { l with values := l.values ++ [p] }) parser.l }

/-- `parse` reads a line. That it calls itself for a section is the last that it does, since it
comes back at the end of the file only. -/
def parseLine (line : Bytes) : Except String Parser :=
  let parser := { parser with ln := parser.ln + 1 }
  match readLine line with
  | .skip => .ok parser
  | .header depth sname => parser.parseSection depth sname
  | .value p => .ok (parser.parseValue p)
  | .noEquals => .error (parser.err "no '=' found")

end Parser

/-- `Parser::Parser`: the file, or what is thrown. -/
def parse (text : Bytes) : Except String Level :=
  (·.top) <$> (getlines text).foldlM Parser.parseLine ({} : Parser)

/-! ### What a file says -/

/-- What is known of a file so far. -/
structure Scan where
  /-- the sections in their order, by the names on the way to them -/
  sections : List (List Bytes) := [[]]
  /-- the section that was named last -/
  current : List Bytes := []
  /-- the pairs in their order, with their sections -/
  entries : List (List Bytes × Bytes × Bytes) := []
  ln : ℕ := 0

namespace Scan

variable (s : Scan)

/-- The next line. -/
def line (line : Bytes) : Except String Scan :=
  let s := { s with ln := s.ln + 1 }
  let throw (what : String) : String := what ++ " on line #" ++ toString s.ln
  match readLine line with
  | .skip => .ok s
  | .header depth sname =>
      let path := s.current.take (depth - 1) ++ [sname]
      if s.current.length + 1 < depth then .error (throw "section with wrong depth")
      else if path ∈ s.sections then
        .error (throw "duplicate section name on the same level")
      else .ok { s with sections := s.sections ++ [path], current := path }
  | .value p => .ok { s with entries := s.entries ++ [(s.current, p)] }
  | .noEquals => .error (throw "no '=' found")

/-- The pairs of a section. -/
def valuesAt (path : List Bytes) : List (Bytes × Bytes) :=
  (s.entries.filter fun e => e.1 = path).map Prod.snd

/-- The name of a section in the section `path`. -/
def nameIn (path r : List Bytes) : Option Bytes := if r.dropLast = path then r.getLast? else none

/-- The names of the sections in a section. -/
def namesAt (path : List Bytes) : List Bytes := s.sections.filterMap (nameIn path)

/-- What is found at a place. -/
def view (path : List Bytes) : Option (LevelData × List Bytes) :=
  if path ∈ s.sections then
    some ({ depth := path.length, values := s.valuesAt path }, s.namesAt path)
  else none

end Scan

/-- The scan of a file. -/
def scan (text : Bytes) : Except String Scan := (getlines text).foldlM Scan.line ({} : Scan)

/-! ### The parser does what the file says -/

/-- What the parser has built is what the scan has found. -/
structure Parser.Matches (parser : Parser) (s : Scan) : Prop where
  place : parser.l = s.current
  ln : parser.ln = s.ln
  current_mem : s.current ∈ s.sections
  /-- a section is in a section -/
  parents : ∀ q ∈ s.sections, ∀ r, r <+: q → r ∈ s.sections
  listed : ∀ e ∈ s.entries, e.1 ∈ s.sections
  view : ∀ q, parser.top.view q = s.view q

lemma Parser.matches_init : Parser.Matches {} {} where
  place := rfl
  ln := rfl
  current_mem := by simp
  parents q hq r hr := by
    simp only [List.mem_singleton] at hq
    simpa [hq] using hr
  listed e he := by simp at he
  view q := by
    cases q with
    | nil => simp [Rose.view_nil, Scan.view, Scan.valuesAt, Scan.namesAt, Scan.nameIn]
    | cons k ks => simp [Rose.view_cons, Scan.view]

/-- A section has a bracket. -/
lemma readLine_depth_pos {line : Bytes} {depth : ℕ} {sname : Bytes}
    (h : readLine line = .header depth sname) : 0 < depth := by
  simp only [readLine] at h
  split_ifs at h with _ _ hhead
  obtain ⟨rfl, -⟩ := Line.header.inj h
  cases htrim : trim line with
  | nil => simp [htrim] at hhead
  | cons c cs =>
    rw [htrim, List.head?_cons, Option.some_inj] at hhead
    simp [parseSLine, hhead]

lemma iterate_dropLast (n : ℕ) (p : List Bytes) : List.dropLast^[n] p = p.take (p.length - n) := by
  induction n generalizing p with
  | zero => simp
  | succ n ih =>
    rw [Function.iterate_succ_apply, ih, List.dropLast_eq_take, List.take_take, List.length_take]
    congr 1
    omega

/-- The level that a new section comes into. -/
lemma parent_eq {l : List Bytes} {depth : ℕ} (hpos : 0 < depth) (hle : depth ≤ l.length + 1) :
    (if l.length = depth - 1 then l else List.dropLast^[l.length - depth] l.dropLast) =
      l.take (depth - 1) := by
  split_ifs with heq
  · rw [← heq, List.take_length]
  · rw [← Function.iterate_succ_apply, iterate_dropLast]
    congr 1
    omega

section ParseSection

variable {parser : Parser} {depth : ℕ} {sname : Bytes}

variable (parser sname) in
/-- A section that is not there yet. -/
lemma Parser.parseSection_new
    (hdepth : ((parser.top.get? parser.l).getD { label := {} }).label.depth = parser.l.length)
    (hpos : 0 < depth) (hle : depth ≤ parser.l.length + 1)
    (hsome : parser.top.get? (parser.l.take (depth - 1)) ≠ none)
    (hnone : parser.top.get? (parser.l.take (depth - 1) ++ [sname]) = none) :
    parser.parseSection depth sname = .ok { parser with
      top := parser.top.modify (Rose.addChild sname { label := { depth := depth } })
        (parser.l.take (depth - 1))
      l := parser.l.take (depth - 1) ++ [sname] } := by
  simp only [parseSection, hdepth, parent_eq hpos hle]
  rw [if_neg (by omega)]
  have hleaf : (((parser.top.modify (Rose.addChild sname { label := {} })
      (parser.l.take (depth - 1))).get? (parser.l.take (depth - 1) ++ [sname])).getD
        { label := {} }).label.depth = 0 := by
    have hview := Rose.view_addChild (q := parser.l.take (depth - 1) ++ [sname]) ({} : LevelData)
      hsome hnone
    rw [if_pos rfl, Rose.view, Option.map_eq_some_iff] at hview
    obtain ⟨lp, hlp, heq⟩ := hview
    rw [hlp, Option.getD_some, (Prod.mk.inj heq).1]
  simp only [hnone, Option.isSome_none, Bool.false_eq_true, if_false, hleaf, ne_eq,
    not_true_eq_false, Rose.modify_modify_addChild hnone]
  rfl

/-- A section that is there. -/
lemma Parser.parseSection_dup {lp : Level}
    (hdepth : ((parser.top.get? parser.l).getD { label := {} }).label.depth = parser.l.length)
    (hpos : 0 < depth) (hle : depth ≤ parser.l.length + 1)
    (hlp : parser.top.get? (parser.l.take (depth - 1) ++ [sname]) = some lp)
    (hne : lp.label.depth ≠ 0) :
    parser.parseSection depth sname =
      .error (parser.err "duplicate section name on the same level") := by
  simp only [parseSection, hdepth, parent_eq hpos hle]
  rw [if_neg (by omega)]
  simp [hlp, hne]

end ParseSection

section Matches

variable {parser : Parser} {s : Scan}

/-- The level that the parser is at. -/
lemma Parser.Matches.depth_eq (h : parser.Matches s) :
    ((parser.top.get? parser.l).getD { label := {} }).label.depth = s.current.length := by
  have hview := h.view s.current
  rw [Scan.view, if_pos h.current_mem, Rose.view, Option.map_eq_some_iff] at hview
  obtain ⟨l, hl, heq⟩ := hview
  rw [h.place, hl, Option.getD_some, (Prod.mk.inj heq).1]

/-- A new section. -/
lemma Scan.view_section (hparents : ∀ q ∈ s.sections, ∀ r, r <+: q → r ∈ s.sections)
    (hlisted : ∀ e ∈ s.entries, e.1 ∈ s.sections) {p : List Bytes} {n : Bytes}
    (hnew : p ++ [n] ∉ s.sections) (current : List Bytes) (q : List Bytes) :
    Scan.view { s with sections := s.sections ++ [p ++ [n]], current := current } q =
      if q = p ++ [n] then some ({ depth := p.length + 1 }, [])
      else (s.view q).map fun v => if q = p then (v.1, v.2 ++ [n]) else v := by
  have hnames : ∀ r, namesAt { s with sections := s.sections ++ [p ++ [n]], current := current } r =
      s.namesAt r ++ if r = p then [n] else [] := by
    intro r
    rw [namesAt, namesAt, List.filterMap_append]
    by_cases hr : r = p
    · simp [nameIn, hr]
    · simp [nameIn, hr, Ne.symm hr]
  have hvalues : ∀ r,
      valuesAt { s with sections := s.sections ++ [p ++ [n]], current := current } r =
        s.valuesAt r := fun r => rfl
  by_cases hq : q = p ++ [n]
  · have hempty : s.valuesAt (p ++ [n]) = [] := by
      rw [valuesAt, List.map_eq_nil_iff, List.filter_eq_nil_iff]
      intro e he heq
      exact hnew (by simpa using of_decide_eq_true heq ▸ hlisted e he)
    have hleaf : s.namesAt (p ++ [n]) = [] := by
      rw [namesAt, List.filterMap_eq_nil_iff]
      intro r hr
      rw [nameIn, if_neg]
      rintro hdrop
      exact hnew (hparents r hr _ (hdrop ▸ List.dropLast_prefix r))
    rw [if_pos hq, view, if_pos (by simp [hq]), hnames, hvalues, hq, hempty, hleaf]
    simp
  · rw [if_neg hq, view, hnames, hvalues, view]
    by_cases hmem : q ∈ s.sections
    · rw [if_pos (List.mem_append_left _ hmem), if_pos hmem]
      by_cases hp : q = p <;> simp [hp]
    · rw [if_neg (by simp [hmem, hq]), if_neg hmem]
      rfl

/-- The parser and the scan meet the name of a section. -/
lemma Parser.Matches.section (h : parser.Matches s) {depth : ℕ} (hpos : 0 < depth)
    (sname : Bytes) (hle : depth ≤ s.current.length + 1) :
    (s.current.take (depth - 1) ++ [sname] ∈ s.sections ∧
        parser.parseSection depth sname =
          .error (parser.err "duplicate section name on the same level")) ∨
      (s.current.take (depth - 1) ++ [sname] ∉ s.sections ∧
        ∃ parser', parser.parseSection depth sname = .ok parser' ∧
          parser'.Matches { s with
            sections := s.sections ++ [s.current.take (depth - 1) ++ [sname]]
            current := s.current.take (depth - 1) ++ [sname] }) := by
  have hlength : (s.current.take (depth - 1)).length + 1 = depth := by
    rw [List.length_take]
    omega
  have hparent : s.current.take (depth - 1) ∈ s.sections :=
    h.parents _ h.current_mem _ (List.take_prefix _ _)
  have hdepth := h.depth_eq
  rw [← h.place] at hdepth hle hlength hparent ⊢
  set parent := parser.l.take (depth - 1) with hset
  by_cases hmem : parent ++ [sname] ∈ s.sections
  · refine .inl ⟨hmem, ?_⟩
    have hview := h.view (parent ++ [sname])
    rw [Scan.view, if_pos hmem, Rose.view, Option.map_eq_some_iff] at hview
    obtain ⟨lp, hlp, heq⟩ := hview
    refine parseSection_dup hdepth hpos hle hlp ?_
    rw [(Prod.mk.inj heq).1]
    simp
  · refine .inr ⟨hmem, ?_⟩
    have hnone : parser.top.get? (parent ++ [sname]) = none := by
      rw [← Rose.view_eq_none_iff, h.view, Scan.view, if_neg hmem]
    have hsome : parser.top.get? parent ≠ none := by
      rw [Ne, ← Rose.view_eq_none_iff, h.view, Scan.view, if_pos hparent]
      simp
    refine ⟨_, parseSection_new parser sname hdepth hpos hle hsome hnone, ?_⟩
    refine ⟨rfl, h.ln, by simp, ?_, ?_, fun q => ?_⟩
    · intro q hq r hr
      rcases List.mem_append.mp hq with hq | hq
      · exact List.mem_append_left _ (h.parents q hq r hr)
      · rw [List.mem_singleton.mp hq, List.prefix_concat_iff] at hr
        rcases hr with rfl | hr
        · simp
        · exact List.mem_append_left _ (h.parents _ hparent r hr)
    · exact fun e he => List.mem_append_left _ (h.listed e he)
    · rw [Rose.view_addChild _ hsome hnone, Scan.view_section h.parents h.listed hmem, h.view,
        hlength]

/-- The parser and the scan meet a pair. -/
lemma Parser.Matches.value (h : parser.Matches s) (p : Bytes × Bytes) :
    (parser.parseValue p).Matches { s with entries := s.entries ++ [(s.current, p)] } where
  place := h.place
  ln := h.ln
  current_mem := h.current_mem
  parents := h.parents
  listed e he := by
    rcases List.mem_append.mp he with he | he
    · exact h.listed e he
    · rw [List.mem_singleton.mp he]
      exact h.current_mem
  view q := by
    rw [parseValue, Rose.view_relabel, h.view, h.place, Scan.view, Scan.view]
    by_cases hq : q ∈ s.sections
    · rw [if_pos hq, if_pos hq, Option.map_some]
      by_cases hcur : q = s.current
      · simp [hcur, Scan.valuesAt, Scan.namesAt]
      · simp [hcur, Ne.symm hcur, Scan.valuesAt, Scan.namesAt]
    · rw [if_neg hq, if_neg hq]
      rfl

/-- The parser and the scan read a line. -/
lemma Parser.Matches.step (h : parser.Matches s) (line : Bytes) :
    (∃ parser' s', parser.parseLine line = .ok parser' ∧ s.line line = .ok s' ∧
        parser'.Matches s') ∨
      ∃ e, parser.parseLine line = .error e ∧ s.line line = .error e := by
  have h' : Parser.Matches { parser with ln := parser.ln + 1 } { s with ln := s.ln + 1 } :=
    { h with ln := congrArg (· + 1) h.ln }
  cases hline : readLine line with
  | skip => exact .inl ⟨_, _, by simp [parseLine, hline], by simp [Scan.line, hline], h'⟩
  | noEquals =>
    exact .inr ⟨_, by simp only [parseLine, hline]; rfl, by simp [Scan.line, hline, err, h.ln]⟩
  | value p =>
    exact .inl ⟨_, _, by simp only [parseLine, hline], by simp only [Scan.line, hline], h'.value p⟩
  | header depth sname =>
    have hpos := readLine_depth_pos hline
    simp only [parseLine, hline, Scan.line]
    by_cases hle : depth ≤ s.current.length + 1
    · rw [if_neg (by omega)]
      rcases h'.section hpos sname hle with ⟨hmem, herr⟩ | ⟨hmem, parser', hok, hm⟩
      · exact .inr ⟨_, herr, by simp [hmem, err, h.ln]⟩
      · exact .inl ⟨parser', _, hok, by rw [if_neg hmem], hm⟩
    · refine .inr ⟨_, ?_, if_pos (by omega)⟩
      simp only [parseSection, h'.depth_eq]
      rw [if_pos (by omega)]
      simp [err, h.ln]

/-- The parser and the scan read some lines. -/
lemma Parser.Matches.run (h : parser.Matches s) (lines : List Bytes) :
    (∃ parser' s', lines.foldlM parseLine parser = .ok parser' ∧
        lines.foldlM Scan.line s = .ok s' ∧ parser'.Matches s') ∨
      ∃ e, lines.foldlM parseLine parser = .error e ∧ lines.foldlM Scan.line s = .error e := by
  induction lines generalizing parser s with
  | nil => exact .inl ⟨parser, s, rfl, rfl, h⟩
  | cons line lines ih =>
    rcases h.step line with ⟨parser', s', hp, hs, hm⟩ | ⟨e, hp, hs⟩
    · rw [List.foldlM_cons, List.foldlM_cons, hp, hs]
      exact ih hm
    · refine .inr ⟨e, ?_, ?_⟩ <;> simp only [List.foldlM_cons, hp, hs] <;> rfl

end Matches

/-- The parser builds what the file says, and throws where the scan fails. -/
theorem ini_parse_scan (text : Bytes) :
    (∃ top s, parse text = .ok top ∧ scan text = .ok s ∧ ∀ q, top.view q = s.view q) ∨
      ∃ e, parse text = .error e ∧ scan text = .error e := by
  rcases Parser.matches_init.run (getlines text) with ⟨parser, s, hp, hs, hm⟩ | ⟨e, hp, hs⟩
  · exact .inl ⟨parser.top, s, by simp [parse, hp], hs, hm.view⟩
  · exact .inr ⟨e, by simp [parse, hp], hs⟩

end Ini

end Udap
