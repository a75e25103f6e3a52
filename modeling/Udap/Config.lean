import Udap.Config.Ini
import Udap.Lib.Decimal

/-!
`udap::Config`, and what the context and the router take from it.

The sections are visited in an order of their own, whatever their order in the file: `router` comes
first. So the key file of the transports is known when the links are made.

* `Config.load_eq`: what is loaded are the pairs of five sections, as the scan of the file finds
  them.
* `router_settings`: the settings of the router, by the last pair of each key. Every link of `bind`
  is made with the key file that the section `router` ends up with.
* `context_settings`: the settings of the context. The number of workers is the first that is
  positive, not the last.
-/

namespace Udap

open ByteMem Ini

/-- The bytes of a text. -/
def str (s : String) : Bytes := s.toList.map ascii

/-- What is seen of a `c_str()`. -/
def cStr (s : Bytes) : Bytes := s.takeWhile (· ≠ 0)

/-- `atoi`: a `long` that is cut to an `int`. -/
def atoi (s : Bytes) : ℤ := (strtol s).bmod (2 ^ 32)

/-! ### The configuration -/

/-- `udap::Config`. -/
structure Config where
  router : List (Bytes × Bytes) := []
  network : List (Bytes × Bytes) := []
  netdb : List (Bytes × Bytes) := []
  iwpLinks : List (Bytes × Bytes) := []
  connect : List (Bytes × Bytes) := []

/-- `find_section`, where nothing is to be found by default. -/
def findSection (top : Level) (name : Bytes) : List (Bytes × Bytes) :=
  match top.get? [name] with
  | none => []
  | some l => l.label.values

namespace Config

/-- `Config::Load`: the file that opens, if there is one. What the parser throws is not caught. -/
def load (c : Config) : Option Bytes → Except String (Config × Bool)
  | none => .ok (c, false)
  | some text =>
      match parse text with
      | .error e => .error e
      | .ok top =>
          .ok ({ router := findSection top (str "router")
                 network := findSection top (str "network")
                 connect := findSection top (str "connect")
                 netdb := findSection top (str "netdb")
                 iwpLinks := findSection top (str "bind") }, true)

/-- The visits to a section. -/
def visitsOf (sname : Bytes) (items : List (Bytes × Bytes)) : List (Bytes × Bytes × Bytes) :=
  items.map fun item => (sname, cStr item.1, cStr item.2)

/-- `udap_config_iter`: what is visited, with the name of its section. The map of the sections is
ordered by their names. -/
def iter (c : Config) : List (Bytes × Bytes × Bytes) :=
  visitsOf (str "router") c.router ++
    (visitsOf (str "bind") c.iwpLinks ++ (visitsOf (str "connect") c.connect ++
      (visitsOf (str "netdb") c.netdb ++ visitsOf (str "network") c.network)))

end Config

/-! ### What takes settings from it -/

/-- The size of `nodedb_dir`. -/
@[irreducible] def nodedbDirSize : ℕ := 256

/-- What `Context::iter_config` sets. -/
@[ext]
structure ContextConfig where
  singleThreaded : Bool := false
  /-- the number of the threads of `worker`, once there is one -/
  worker : Option ℤ := none
  numNetThreads : ℤ := 1
  nodedbDir : Bytes := List.replicate nodedbDirSize 0
  deriving DecidableEq

/-- `Context::iter_config`. -/
def ContextConfig.iterConfig (ctx : ContextConfig) : Bytes × Bytes × Bytes → ContextConfig
  | (sname, key, val) =>
      let ctx :=
        if sname = str "router" then
          let ctx :=
            if key = str "worker-threads" ∧ ctx.singleThreaded = false then
              if 0 < atoi val ∧ ctx.worker = none then { ctx with worker := some (atoi val) }
              else ctx
            else ctx
          if key = str "net-threads" then
            let n := if atoi val ≤ 0 then 1 else atoi val
            { ctx with numNetThreads := if ctx.singleThreaded then 0 else n }
          else ctx
        else ctx
      if sname = str "netdb" then
        if key = str "dir" then { ctx with nodedbDir := val.takeD nodedbDirSize 0 } else ctx
      else ctx

/-- A call of `configure`, on a link that was made with a key file. -/
structure LinkConfig where
  keyfile : Bytes
  ifname : Bytes
  /-- the address family is that of Ethernet, not that of IPv4 -/
  ethernet : Bool
  proto : ℕ
  deriving DecidableEq

/-- What `router_iter_config` sets. -/
structure RouterConfig where
  transportKeyfile : Bytes := str "transport.key"
  connect : Bytes → Option Bytes := fun _ => none
  identKeyfile : Bytes := str "identity.key"
  encryptionKeyfile : Bytes := str "encryption.key"
  ourRcFile : Bytes := str "rc.signed"
  /-- the links that were tried -/
  tried : List LinkConfig := []
  inboundLinks : List LinkConfig := []

/-- `UDAP_ETH_PROTO`. -/
def ethProto : ℕ := 0xD1CE

namespace RouterConfig

/-- `router_iter_config` in the section `bind`. Whether a link can be configured is up to the
system, and to what was tried before. -/
def bindLink (configure : List LinkConfig → LinkConfig → Bool) (self : RouterConfig)
    (key val : Bytes) : RouterConfig :=
  let ethernet := val = str "eth"
  let proto := if ethernet then ethProto else (atoi val % 2 ^ 16).toNat
  if key ≠ str "*" then
    let link : LinkConfig := { keyfile := self.transportKeyfile, ifname := key, ethernet, proto }
    { self with
      tried := self.tried ++ [link]
      inboundLinks :=
        if configure self.tried link then self.inboundLinks ++ [link] else self.inboundLinks }
  else self

/-- `router_iter_config` in the section `router`. -/
def setFile (self : RouterConfig) (key val : Bytes) : RouterConfig :=
  let self :=
    if key = str "encryption-privkey" then { self with encryptionKeyfile := val } else self
  let self := if key = str "contact-file" then { self with ourRcFile := val } else self
  let self := if key = str "transport-privkey" then { self with transportKeyfile := val } else self
  if key = str "ident-privkey" then { self with identKeyfile := val } else self

/-- `router_iter_config`. -/
def iterConfig (configure : List LinkConfig → LinkConfig → Bool) (self : RouterConfig) :
    Bytes × Bytes × Bytes → RouterConfig
  | (sname, key, val) =>
      if sname = str "bind" then self.bindLink configure key val
      else if sname = str "connect" then
        { self with connect := Function.update self.connect key (some val) }
      else if sname = str "router" then self.setFile key val
      else self

/-- The links that could be configured, out of those that were tried after some others. -/
def configured (configure : List LinkConfig → LinkConfig → Bool) (before : List LinkConfig) :
    List LinkConfig → List LinkConfig
  | [] => []
  | link :: links =>
      (if configure before link then [link] else []) ++
        configured configure (before ++ [link]) links

end RouterConfig

/-! ### The last pair of a key -/

section Foldl

variable {σ ι β : Type} {step : σ → ι → σ} {I : σ → Prop} {p : ι → Prop} [DecidablePred p]
  {g : ι → β}

/-- A field that some inputs of a run set, and no others, is what the last of them sets. -/
lemma foldl_last (field : σ → β) (hI : ∀ s i, I s → I (step s i))
    (h : ∀ s i, I s → field (step s i) = if p i then g i else field s) (is : List ι) {s : σ}
    (hs : I s) : field (is.foldl step s) = ((is.filter p).getLast?.map g).getD (field s) := by
  induction is generalizing s with
  | nil => rfl
  | cons i is ih =>
    rw [List.foldl_cons, ih (hI s i hs), h s i hs]
    by_cases hi : p i
    · rw [if_pos hi, List.filter_cons_of_pos (by simpa using hi), List.getLast?_cons]
      cases (is.filter p).getLast? <;> rfl
    · rw [if_neg hi, List.filter_cons_of_neg (by simpa using hi)]

/-- A field that some inputs set if nothing has set it is what the first of them sets. -/
lemma foldl_first (field : σ → Option β) (hI : ∀ s i, I s → I (step s i))
    (h : ∀ s i, I s → field (step s i) = if p i ∧ field s = none then some (g i) else field s)
    (is : List ι) {s : σ} (hs : I s) :
    field (is.foldl step s) = (field s).or ((is.filter p).head?.map g) := by
  induction is generalizing s with
  | nil => simp
  | cons i is ih =>
    rw [List.foldl_cons, ih (hI s i hs), h s i hs]
    by_cases hi : p i
    · cases hfield : field s <;> simp [hi]
    · simp [hi]

end Foldl

/-- The pairs of a section at the top of a file, as they are visited. -/
def Ini.Scan.pairs (s : Scan) (name : String) : List (Bytes × Bytes) :=
  (s.valuesAt [str name]).map fun p => (cStr p.1, cStr p.2)

/-- The last value that is given to a key. -/
def lastValue (items : List (Bytes × Bytes)) (key : Bytes) : Option Bytes :=
  (items.filter fun p => p.1 = key).getLast?.map Prod.snd

/-- What a section of the tree holds is what the file gives it. -/
lemma findSection_eq {top : Level} {s : Scan} (hview : ∀ q, top.view q = s.view q)
    (hlisted : ∀ e ∈ s.entries, e.1 ∈ s.sections) (name : Bytes) :
    findSection top name = s.valuesAt [name] := by
  have h := hview [name]
  rw [findSection]
  rw [Rose.view, Scan.view] at h
  cases hget : top.get? [name] with
  | none =>
    rw [hget] at h
    split_ifs at h with hmem
    · cases h
    · have hnil : s.valuesAt [name] = [] := by
        rw [Scan.valuesAt, List.map_eq_nil_iff, List.filter_eq_nil_iff]
        intro e he heq
        exact hmem (of_decide_eq_true heq ▸ hlisted e he)
      rw [hnil]
  | some l =>
    rw [hget] at h
    split_ifs at h with hmem
    · exact congrArg LevelData.values (Prod.mk.inj (Option.some.inj h)).1
    · cases h

/-- What the configuration is, if the file can be scanned. -/
def Config.ofScan (s : Scan) : Config where
  router := s.valuesAt [str "router"]
  network := s.valuesAt [str "network"]
  netdb := s.valuesAt [str "netdb"]
  iwpLinks := s.valuesAt [str "bind"]
  connect := s.valuesAt [str "connect"]

/-- What is loaded is what the file says. -/
lemma Config.load_eq {text : Bytes} {s : Scan} (h : scan text = .ok s) (c : Config) :
    c.load (some text) = .ok (.ofScan s, true) := by
  rcases Parser.matches_init.run (getlines text) with ⟨parser, s', hp, hs, hm⟩ | ⟨e, -, hs⟩
  · obtain rfl : s' = s := by
      rw [scan, hs] at h
      exact Except.ok.inj h
    have hparse : parse text = .ok parser.top := by simp [parse, hp]
    simp only [load, hparse, findSection_eq hm.view hm.listed, ofScan]
  · rw [scan, hs] at h
    cases h

section Visits

variable {name other : Bytes} (items : List (Bytes × Bytes)) (q : Bytes × Bytes → Prop)
  [DecidablePred q]

lemma filter_visitsOf_self :
    (Config.visitsOf name items).filter (fun v => v.1 = name ∧ q v.2) =
      ((items.map fun p => (cStr p.1, cStr p.2)).filter q).map fun p => (name, p) := by
  simp [Config.visitsOf, List.filter_map, Function.comp_def]

lemma filter_visitsOf_ne (h : other ≠ name) :
    (Config.visitsOf other items).filter (fun v => v.1 = name ∧ q v.2) = [] := by
  rw [List.filter_eq_nil_iff]
  intro v hv
  obtain ⟨item, -, rfl⟩ := List.mem_map.mp hv
  simp [h]

end Visits

/-- The visits to a section. -/
lemma filter_iter (s : Scan) (name : String) (q : Bytes × Bytes → Prop) [DecidablePred q]
    (hname : name ∈ ["router", "bind", "connect", "netdb", "network"]) :
    (Config.ofScan s).iter.filter (fun v => v.1 = str name ∧ q v.2) =
      ((s.pairs name).filter q).map fun p => (str name, p) := by
  simp only [Config.iter, Config.ofScan, List.filter_append]
  simp only [List.mem_cons, List.not_mem_nil, or_false] at hname
  rcases hname with rfl | rfl | rfl | rfl | rfl <;>
    · rw [filter_visitsOf_self]
      repeat rw [filter_visitsOf_ne _ _ (by decide)]
      simp only [List.append_nil, List.nil_append]
      rfl

/-- The last visit to a key. -/
lemma getLast?_filter_iter (s : Scan) (name : String) (key : Bytes)
    (hname : name ∈ ["router", "bind", "connect", "netdb", "network"]) :
    ((Config.ofScan s).iter.filter fun v => v.1 = str name ∧ v.2.1 = key).getLast?.map
      (fun v => v.2.2) = lastValue (s.pairs name) key := by
  rw [filter_iter s name (fun p => p.1 = key) hname, List.getLast?_map, Option.map_map]
  rfl

/-! ### The settings of the context -/

section ContextFields

variable (ctx : ContextConfig) (v : Bytes × Bytes × Bytes)

lemma singleThreaded_iterConfig :
    (ctx.iterConfig v).singleThreaded = ctx.singleThreaded := by
  simp only [ContextConfig.iterConfig]
  split_ifs <;> rfl

lemma worker_iterConfig :
    (ctx.iterConfig v).worker =
      if (v.1 = str "router" ∧ v.2.1 = str "worker-threads" ∧ 0 < atoi v.2.2 ∧
        ctx.singleThreaded = false) ∧ ctx.worker = none then some (atoi v.2.2)
      else ctx.worker := by
  simp only [ContextConfig.iterConfig]
  split_ifs <;> simp_all

lemma numNetThreads_iterConfig :
    (ctx.iterConfig v).numNetThreads =
      if v.1 = str "router" ∧ v.2.1 = str "net-threads" then
        if ctx.singleThreaded then 0 else max 1 (atoi v.2.2)
      else ctx.numNetThreads := by
  have hmax : (if atoi v.2.2 ≤ 0 then 1 else atoi v.2.2) = max 1 (atoi v.2.2) := by
    split_ifs <;> omega
  simp only [ContextConfig.iterConfig, hmax]
  split_ifs <;> simp_all

lemma nodedbDir_iterConfig :
    (ctx.iterConfig v).nodedbDir =
      if v.1 = str "netdb" ∧ v.2.1 = str "dir" then v.2.2.takeD nodedbDirSize 0
      else ctx.nodedbDir := by
  simp only [ContextConfig.iterConfig]
  split_ifs <;> simp_all

end ContextFields

/-- What the context takes from a file. -/
theorem context_settings {text : Bytes} {s : Scan} (h : scan text = .ok s) (c : Config)
    (singleThreaded : Bool) :
    ∃ c', c.load (some text) = .ok (c', true) ∧
      c'.iter.foldl ContextConfig.iterConfig { singleThreaded := singleThreaded } =
        { singleThreaded := singleThreaded
          worker :=
            if singleThreaded then none
            else
              ((s.pairs "router").filter fun p =>
                p.1 = str "worker-threads" ∧ 0 < atoi p.2).head?.map fun p => atoi p.2
          numNetThreads :=
            match lastValue (s.pairs "router") (str "net-threads") with
            | none => 1
            | some v => if singleThreaded then 0 else max 1 (atoi v)
          nodedbDir :=
            ((lastValue (s.pairs "netdb") (str "dir")).getD []).takeD nodedbDirSize 0 } := by
  refine ⟨.ofScan s, c.load_eq h, ?_⟩
  have hI : ∀ (ctx : ContextConfig) (v : Bytes × Bytes × Bytes),
      ctx.singleThreaded = singleThreaded → (ctx.iterConfig v).singleThreaded = singleThreaded :=
    fun ctx v hctx => (singleThreaded_iterConfig ctx v).trans hctx
  have hinit : ({ singleThreaded := singleThreaded } : ContextConfig).singleThreaded =
      singleThreaded := rfl
  refine ContextConfig.ext ?_ ?_ ?_ ?_
  · generalize (Config.ofScan s).iter = visits
    clear h
    induction visits using List.reverseRecOn with
    | nil => rfl
    | append_singleton vs v ih =>
      rw [List.foldl_concat]
      exact hI _ v ih
  -- the worker is made by the first entry that asks for threads
  · have := foldl_first ContextConfig.worker (p := fun v : Bytes × Bytes × Bytes =>
        v.1 = str "router" ∧ v.2.1 = str "worker-threads" ∧ 0 < atoi v.2.2 ∧
          singleThreaded = false) (g := fun v => atoi v.2.2) hI
      (fun ctx v hctx => by rw [worker_iterConfig, hctx]) (Config.ofScan s).iter hinit
    rw [this]
    cases singleThreaded with
    | true => simp
    | false =>
      have hfilter := filter_iter s "router"
        (fun p => p.1 = str "worker-threads" ∧ 0 < atoi p.2) (by simp)
      simp only [and_true] at hfilter ⊢
      rw [hfilter, List.head?_map, Option.map_map]
      rfl
  -- the number of threads and the directory are those of the last entry
  · have := foldl_last ContextConfig.numNetThreads
      (p := fun v : Bytes × Bytes × Bytes => v.1 = str "router" ∧ v.2.1 = str "net-threads")
      (g := fun v => if singleThreaded then 0 else max 1 (atoi v.2.2)) hI
      (fun ctx v hctx => by rw [numNetThreads_iterConfig, hctx]) (Config.ofScan s).iter hinit
    have hlast := getLast?_filter_iter s "router" (str "net-threads") (by simp)
    rw [this, ← hlast]
    cases ((Config.ofScan s).iter.filter _).getLast? <;> rfl
  · have := foldl_last ContextConfig.nodedbDir
      (p := fun v : Bytes × Bytes × Bytes => v.1 = str "netdb" ∧ v.2.1 = str "dir")
      (g := fun v => v.2.2.takeD nodedbDirSize 0) hI
      (fun ctx v _ => nodedbDir_iterConfig ctx v) (Config.ofScan s).iter hinit
    have hlast := getLast?_filter_iter s "netdb" (str "dir") (by simp)
    rw [this, ← hlast]
    cases ((Config.ofScan s).iter.filter _).getLast? with
    | none => exact (List.takeD_nil _ _).symm
    | some v => rfl

/-- A file with one setting. -/
theorem context_settings_four :
    ∃ c', Config.load {} (some (str "[router]\nnet-threads=4\n")) = .ok (c', true) ∧
      (c'.iter.foldl ContextConfig.iterConfig {}).numNetThreads = 4 := by
  have hscan : scan (str "[router]\nnet-threads=4\n") = .ok
      { sections := [[], [str "router"]], current := [str "router"],
        entries := [([str "router"], str "net-threads", str "4")], ln := 2 } := rfl
  obtain ⟨c', hc, hs⟩ := context_settings hscan {} false
  exact ⟨c', hc, by rw [hs]; decide +kernel⟩

/-! ### The settings of the router -/

section RouterFields

variable {configure : List LinkConfig → LinkConfig → Bool} (self : RouterConfig) (key val : Bytes)

namespace RouterConfig

/-- The section of a visit, among those that the router knows. -/
lemma iterConfig_bind :
    self.iterConfig configure (str "bind", key, val) = self.bindLink configure key val := rfl

lemma iterConfig_connect :
    self.iterConfig configure (str "connect", key, val) =
      { self with connect := Function.update self.connect key (some val) } := by
  rw [iterConfig, if_neg (by decide), if_pos rfl]

lemma iterConfig_router :
    self.iterConfig configure (str "router", key, val) = self.setFile key val := by
  rw [iterConfig, if_neg (by decide), if_neg (by decide), if_pos rfl]

lemma iterConfig_other {sname : Bytes}
    (h : sname ≠ str "bind" ∧ sname ≠ str "connect" ∧ sname ≠ str "router") :
    self.iterConfig configure (sname, key, val) = self := by
  rw [iterConfig, if_neg h.1, if_neg h.2.1, if_neg h.2.2]

lemma setFile_eq : self.setFile key val =
    { self with
      encryptionKeyfile :=
        if key = str "encryption-privkey" then val else self.encryptionKeyfile
      ourRcFile := if key = str "contact-file" then val else self.ourRcFile
      transportKeyfile := if key = str "transport-privkey" then val else self.transportKeyfile
      identKeyfile := if key = str "ident-privkey" then val else self.identKeyfile } := by
  simp only [setFile]
  split_ifs <;> rfl

/-- A file that no section but `router` sets. -/
lemma file_iterConfig (field : RouterConfig → Bytes) {name : Bytes}
    (hset : ∀ self key val, field (setFile self key val) = if key = name then val else field self)
    (hbind : ∀ self key val, field (bindLink configure self key val) = field self)
    (hconnect : ∀ self connect, field { self with connect := connect } = field self)
    (v : Bytes × Bytes × Bytes) :
    field (self.iterConfig configure v) =
      if v.1 = str "router" ∧ v.2.1 = name then v.2.2 else field self := by
  obtain ⟨sname, key, val⟩ := v
  by_cases hrouter : sname = str "router"
  · subst hrouter
    rw [iterConfig_router, hset]
    simp
  · rw [if_neg fun h => hrouter h.1]
    by_cases hb : sname = str "bind"
    · rw [hb, iterConfig_bind, hbind]
    · by_cases hc : sname = str "connect"
      · rw [hc, iterConfig_connect, hconnect]
      · rw [iterConfig_other _ _ _ ⟨hb, hc, hrouter⟩]

/-- What a file is at the end. -/
lemma file_iter (field : RouterConfig → Bytes) {name : Bytes}
    (hset : ∀ self key val, field (setFile self key val) = if key = name then val else field self)
    (hbind : ∀ self key val, field (bindLink configure self key val) = field self)
    (hconnect : ∀ self connect, field { self with connect := connect } = field self) (s : Scan) :
    field ((Config.ofScan s).iter.foldl (iterConfig configure) self) =
      (lastValue (s.pairs "router") name).getD (field self) := by
  rw [foldl_last field (I := fun _ => True) (fun _ _ _ => trivial)
    (fun self v _ => file_iterConfig self field hset hbind hconnect v) _ trivial,
    getLast?_filter_iter s "router" name (by simp)]

variable (configure) in
/-- The key file of the transports changes in the section `router` only. -/
lemma transportKeyfile_foldl {visits : List (Bytes × Bytes × Bytes)}
    (h : ∀ v ∈ visits, v.1 ≠ str "router") :
    (visits.foldl (iterConfig configure) self).transportKeyfile = self.transportKeyfile := by
  have hnil :
      visits.filter (fun v => v.1 = str "router" ∧ v.2.1 = str "transport-privkey") = [] := by
    rw [List.filter_eq_nil_iff]
    intro v hv
    simp [h v hv]
  rw [foldl_last RouterConfig.transportKeyfile (I := fun _ => True) (fun _ _ _ => trivial)
    (fun self v _ => file_iterConfig self RouterConfig.transportKeyfile
      (fun self key val => by rw [setFile_eq])
      (fun self key val => by rw [bindLink]; split_ifs <;> rfl) (fun _ _ => rfl) v) _ trivial,
    hnil]
  rfl

/-- The nodes to connect to. -/
lemma connect_iter (s : Scan) (name : Bytes) :
    ((Config.ofScan s).iter.foldl (iterConfig configure) self).connect name =
      ((lastValue (s.pairs "connect") name).map some).getD (self.connect name) := by
  have hstep : ∀ (self : RouterConfig) (v : Bytes × Bytes × Bytes),
      (self.iterConfig configure v).connect name =
        if v.1 = str "connect" ∧ v.2.1 = name then some v.2.2 else self.connect name := by
    rintro self ⟨sname, key, val⟩
    by_cases hc : sname = str "connect"
    · subst hc
      rw [iterConfig_connect]
      by_cases hkey : key = name
      · simp [hkey]
      · simp [hkey, Ne.symm hkey]
    · rw [if_neg fun h => hc h.1]
      by_cases hb : sname = str "bind"
      · rw [hb, iterConfig_bind, bindLink]
        split_ifs <;> rfl
      · by_cases hr : sname = str "router"
        · rw [hr, iterConfig_router, setFile_eq]
        · rw [iterConfig_other _ _ _ ⟨hb, hc, hr⟩]
  have hlast := getLast?_filter_iter s "connect" name (by simp)
  rw [foldl_last (fun self : RouterConfig => self.connect name) (I := fun _ => True)
    (fun _ _ _ => trivial) (fun self v _ => hstep self v) _ trivial, ← hlast, Option.map_map]
  rfl

/-- The link that a pair of `bind` asks for. -/
def linkOf (keyfile : Bytes) (p : Bytes × Bytes) : LinkConfig where
  keyfile := keyfile
  ifname := p.1
  ethernet := p.2 = str "eth"
  proto := if p.2 = str "eth" then ethProto else (atoi p.2 % 2 ^ 16).toNat

/-- The pairs of `bind` that ask for a link. -/
def linkPairs (items : List (Bytes × Bytes)) : List (Bytes × Bytes) :=
  items.filter fun p => p.1 ≠ str "*"

variable (configure) in
/-- The links do not change in other sections. -/
lemma links_foldl {visits : List (Bytes × Bytes × Bytes)} (h : ∀ v ∈ visits, v.1 ≠ str "bind") :
    (visits.foldl (iterConfig configure) self).tried = self.tried ∧
      (visits.foldl (iterConfig configure) self).inboundLinks = self.inboundLinks := by
  induction visits generalizing self with
  | nil => exact ⟨rfl, rfl⟩
  | cons v visits ih =>
    obtain ⟨sname, key, val⟩ := v
    have hstep : (self.iterConfig configure (sname, key, val)).tried = self.tried ∧
        (self.iterConfig configure (sname, key, val)).inboundLinks = self.inboundLinks := by
      have hb : sname ≠ str "bind" := h _ List.mem_cons_self
      by_cases hc : sname = str "connect"
      · rw [hc, iterConfig_connect]
        exact ⟨rfl, rfl⟩
      · by_cases hr : sname = str "router"
        · rw [hr, iterConfig_router, setFile_eq]
          exact ⟨rfl, rfl⟩
        · rw [iterConfig_other _ _ _ ⟨hb, hc, hr⟩]
          exact ⟨rfl, rfl⟩
    rw [List.foldl_cons]
    obtain ⟨htried, hinbound⟩ := ih (self.iterConfig configure (sname, key, val))
      fun v hv => h v (List.mem_cons_of_mem _ hv)
    exact ⟨htried.trans hstep.1, hinbound.trans hstep.2⟩

variable (configure) in
/-- The visits to `bind`. -/
lemma links_bind (items : List (Bytes × Bytes)) :
    let r := (Config.visitsOf (str "bind") items).foldl (iterConfig configure) self
    let links := (linkPairs (items.map fun p => (cStr p.1, cStr p.2))).map
      (linkOf self.transportKeyfile)
    r.transportKeyfile = self.transportKeyfile ∧ r.tried = self.tried ++ links ∧
      r.inboundLinks = self.inboundLinks ++ configured configure self.tried links := by
  induction items generalizing self with
  | nil => simp [Config.visitsOf, linkPairs, configured]
  | cons p items ih =>
    by_cases hkey : cStr p.1 = str "*"
    · have hstep : self.iterConfig configure (str "bind", cStr p.1, cStr p.2) = self := by
        rw [iterConfig_bind, bindLink, if_neg (by simpa using hkey)]
      have hpairs : linkPairs ((p :: items).map fun p => (cStr p.1, cStr p.2)) =
          linkPairs (items.map fun p => (cStr p.1, cStr p.2)) := by simp [linkPairs, hkey]
      have := ih self
      simp only [Config.visitsOf, List.map_cons, List.foldl_cons, hstep] at this ⊢
      rw [← List.map_cons (f := fun p : Bytes × Bytes => (cStr p.1, cStr p.2)), hpairs]
      exact this
    · let link := linkOf self.transportKeyfile (cStr p.1, cStr p.2)
      have hstep : self.iterConfig configure (str "bind", cStr p.1, cStr p.2) =
          { self with
            tried := self.tried ++ [link]
            inboundLinks :=
              if configure self.tried link then self.inboundLinks ++ [link]
              else self.inboundLinks } := by
        rw [iterConfig_bind, bindLink, if_pos hkey]
        simp only
        rfl
      have hpairs : linkPairs ((cStr p.1, cStr p.2) :: items.map fun p => (cStr p.1, cStr p.2)) =
          (cStr p.1, cStr p.2) :: linkPairs (items.map fun p => (cStr p.1, cStr p.2)) := by
        simp [linkPairs, hkey]
      obtain ⟨hkeyfile, htried, hinbound⟩ := ih { self with
        tried := self.tried ++ [link]
        inboundLinks :=
          if configure self.tried link then self.inboundLinks ++ [link] else self.inboundLinks }
      simp only [Config.visitsOf, List.foldl_cons, List.map_cons, hpairs, hstep, configured]
        at hkeyfile htried hinbound ⊢
      refine ⟨hkeyfile, ?_, ?_⟩
      · rw [htried, List.append_assoc, List.singleton_append]
      · rw [hinbound, ← List.append_assoc]
        congr 1
        split_ifs <;> simp [link]

variable (configure) in
/-- The links at the end. -/
lemma links_iter (s : Scan) :
    let r := (Config.ofScan s).iter.foldl (iterConfig configure) self
    let links := (linkPairs (s.pairs "bind")).map (linkOf r.transportKeyfile)
    r.tried = self.tried ++ links ∧
      r.inboundLinks = self.inboundLinks ++ configured configure self.tried links := by
  simp only [Config.iter, List.foldl_append]
  set r₁ := (Config.visitsOf (str "router") (Config.ofScan s).router).foldl (iterConfig configure)
    self
  set r₂ := (Config.visitsOf (str "bind") (Config.ofScan s).iwpLinks).foldl (iterConfig configure)
    r₁
  have hvisits : ∀ {v : Bytes × Bytes × Bytes} {name : Bytes} {items : List (Bytes × Bytes)},
      v ∈ Config.visitsOf name items → v.1 = name := by
    intro v name items hv
    obtain ⟨item, -, rfl⟩ := List.mem_map.mp hv
    rfl
  have hrouter : r₁.tried = self.tried ∧ r₁.inboundLinks = self.inboundLinks :=
    links_foldl _ _ fun v hv => by
      rw [hvisits hv]
      decide
  obtain ⟨hkeyfile, htried, hinbound⟩ := links_bind configure r₁ (Config.ofScan s).iwpLinks
  -- the other sections change neither the links nor their key file
  rw [← List.foldl_append, ← List.foldl_append]
  set rest := Config.visitsOf (str "connect") (Config.ofScan s).connect ++
    (Config.visitsOf (str "netdb") (Config.ofScan s).netdb ++
      Config.visitsOf (str "network") (Config.ofScan s).network)
  have hrest : ∀ v ∈ rest, v.1 ≠ str "bind" ∧ v.1 ≠ str "router" := by
    intro v hv
    simp only [rest, List.mem_append] at hv
    rcases hv with hv | hv | hv <;>
      · rw [hvisits hv]
        decide
  obtain ⟨htried', hinbound'⟩ := links_foldl configure r₂ fun v hv => (hrest v hv).1
  have hkeyfile' := transportKeyfile_foldl configure r₂ fun v hv => (hrest v hv).2
  rw [htried', hinbound', hkeyfile', hkeyfile, htried, hinbound, hrouter.1, hrouter.2]
  exact ⟨rfl, rfl⟩

end RouterConfig

end RouterFields

/-- What the router takes from a file. -/
theorem router_settings {text : Bytes} {s : Scan} (h : scan text = .ok s) (c : Config)
    (configure : List LinkConfig → LinkConfig → Bool) :
    ∃ c', c.load (some text) = .ok (c', true) ∧
      let r : RouterConfig := c'.iter.foldl (RouterConfig.iterConfig configure) {}
      let file (key : String) (init : String) :=
        (lastValue (s.pairs "router") (str key)).getD (str init)
      r.encryptionKeyfile = file "encryption-privkey" "encryption.key" ∧
      r.ourRcFile = file "contact-file" "rc.signed" ∧
      r.transportKeyfile = file "transport-privkey" "transport.key" ∧
      r.identKeyfile = file "ident-privkey" "identity.key" ∧
      (∀ name, r.connect name = lastValue (s.pairs "connect") name) ∧
      r.tried = (RouterConfig.linkPairs (s.pairs "bind")).map
        (RouterConfig.linkOf r.transportKeyfile) ∧
      r.inboundLinks = RouterConfig.configured configure [] r.tried := by
  refine ⟨.ofScan s, c.load_eq h, ?_⟩
  obtain ⟨htried, hinbound⟩ := RouterConfig.links_iter configure {} s
  refine ⟨?_, ?_, ?_, ?_, fun name => ?_, htried, ?_⟩
  · exact RouterConfig.file_iter {} RouterConfig.encryptionKeyfile
      (fun self key val => by rw [RouterConfig.setFile_eq])
      (fun self key val => by rw [RouterConfig.bindLink]; split_ifs <;> rfl) (fun _ _ => rfl) s
  · exact RouterConfig.file_iter {} RouterConfig.ourRcFile
      (fun self key val => by rw [RouterConfig.setFile_eq])
      (fun self key val => by rw [RouterConfig.bindLink]; split_ifs <;> rfl) (fun _ _ => rfl) s
  · exact RouterConfig.file_iter {} RouterConfig.transportKeyfile
      (fun self key val => by rw [RouterConfig.setFile_eq])
      (fun self key val => by rw [RouterConfig.bindLink]; split_ifs <;> rfl) (fun _ _ => rfl) s
  · exact RouterConfig.file_iter {} RouterConfig.identKeyfile
      (fun self key val => by rw [RouterConfig.setFile_eq])
      (fun self key val => by rw [RouterConfig.bindLink]; split_ifs <;> rfl) (fun _ _ => rfl) s
  · rw [RouterConfig.connect_iter]
    cases lastValue (s.pairs "connect") name <;> rfl
  · rw [htried]
    exact hinbound

/-- A file whose link comes before the key file that it is made with. -/
theorem router_settings_link :
    ∃ c', Config.load {} (some (str "[bind]\nlo=7\n[router]\ntransport-privkey=k\n")) =
        .ok (c', true) ∧
      (c'.iter.foldl (RouterConfig.iterConfig fun _ _ => true) {}).tried =
        [{ keyfile := str "k", ifname := str "lo", ethernet := false, proto := 7 }] := by
  have hscan : scan (str "[bind]\nlo=7\n[router]\ntransport-privkey=k\n") = .ok
      { sections := [[], [str "bind"], [str "router"]], current := [str "router"],
        entries := [([str "bind"], str "lo", str "7"),
          ([str "router"], str "transport-privkey", str "k")], ln := 4 } := rfl
  obtain ⟨c', hc, -, -, hk, -, -, ht, -⟩ := router_settings hscan {} fun _ _ => true
  refine ⟨c', hc, ht.trans ?_⟩
  rw [hk]
  decide +kernel

end Udap
