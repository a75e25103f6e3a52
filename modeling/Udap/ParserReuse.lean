import Udap.Bencode.Trace
import Udap.LinkMessage
import Udap.Routing.Message

/-!
The parsers of a router outlive the buffers they are given.

Both keep `msg` and the flag for the first key from one buffer to the next, in whatever state a
decode was given up. A link parser does not clear `msg`, but looks at it only after the first entry
has replaced it (`readDict_stale`). A routing parser clears both; without that an unknown message
type would be taken for the message before.

* `feed`, `outcomes`: what a parser makes of one buffer, and of one after the other.
* `parsers_carry_nothing_over`: a parser that has been used does as a new one does, and the routing
  parser uses no null `msg`.
-/

namespace Udap

open ByteMem

/-! ### Link messages -/

namespace InboundMessageParser

variable {ρ : Type} {lib : HostLib} {handle : Handler ρ} {p : InboundMessageParser ρ}

/-- A buffer, with the memory around it and the state of its session and of the router when it is
given to the parser. -/
structure Job (ρ : Type) where
  bytes : Bytes
  after : ℕ → UInt8
  memory : Uninit
  remoteRouter : RouterContact
  router : ρ

/-- What comes of a buffer: the verdict, the messages that were handed to `HandleMessage`, and what
the session and the router are like then. -/
structure Outcome (ρ : Type) where
  verdict : Bool
  dispatched : List LinkMsg
  remoteRouter : RouterContact
  router : ρ
  sends : List Iwp.LinkMessage

/-- A parser as its constructor leaves it, which does not set `firstkey`. -/
def constructed (firstkey : Bool) (job : Job ρ) : InboundMessageParser ρ :=
  { firstkey := firstkey, msg := none, remoteRouter := job.remoteRouter, router := job.router }

/-- The parser in front of a buffer. -/
def facing (job : Job ρ) (p : InboundMessageParser ρ) : InboundMessageParser ρ :=
  { p with remoteRouter := job.remoteRouter, router := job.router, dispatched := [], sends := [] }

/-- The parser is given a buffer. -/
def feed (lib : HostLib) (handle : Handler ρ) (job : Job ρ) (p : InboundMessageParser ρ) :
    InboundMessageParser ρ × Outcome ρ :=
  match processFrom lib job.memory handle job.after job.bytes (p.facing job) with
  | (p, verdict) => (p, ⟨verdict, p.dispatched, p.remoteRouter, p.router, p.sends⟩)

/-- The parser is given one buffer after the other. -/
def outcomes (lib : HostLib) (handle : Handler ρ) :
    List (Job ρ) → InboundMessageParser ρ → List (Outcome ρ)
  | [], _ => []
  | job :: jobs, p =>
      (feed lib handle job p).2 :: outcomes lib handle jobs (feed lib handle job p).1

/-- Before the first key it does not matter which message is left: the call fails and leaves the
parser alone, or replaces the message. -/
lemma onKey_stale (lib : HostLib) (u : Uninit) (handle : Handler ρ) (hf : p.firstkey = true)
    (msg : Option LinkMsg) (key : Option Bytes) (b : Buffer) :
    onKey lib u handle key { p with msg := msg } b = onKey lib u handle key p b ∨
      onKey lib u handle key { p with msg := msg } b = ({ p with msg := msg }, none) ∧
        onKey lib u handle key p b = (p, none) := by
  cases key with
  | none => exact .inr ⟨if_pos hf, if_pos hf⟩
  | some key =>
      have hfirst : ∀ q : InboundMessageParser ρ, q.firstkey = true →
          onKey lib u handle (some key) q b =
            if isKey key 'a' then Reader.string (fun p type => (newMessage u p type).map fun msg =>
              { p with firstkey := false, msg := some msg }) q b
            else (q, none) := fun q hq => if_pos hq
      rw [hfirst p hf, hfirst { p with msg := msg } hf]
      split_ifs
      · cases hs : b.readString with
        | none => exact .inr ⟨by simp only [Reader.string, hs], by simp only [Reader.string, hs]⟩
        | some r =>
            cases hn : newMessage u p r.1 with
            | none =>
                have hn' : newMessage u { p with msg := msg } r.1 = none := hn
                exact .inr ⟨by simp only [Reader.string, hs, hn', Option.map_none],
                  by simp only [Reader.string, hs, hn, Option.map_none]⟩
            | some m =>
                have hn' : newMessage u { p with msg := msg } r.1 = some m := hn
                exact .inl (by simp only [Reader.string, hs, hn, hn', Option.map_some])
      · exact .inr ⟨rfl, rfl⟩

/-- The same of a whole buffer. -/
lemma readDict_stale (lib : HostLib) (u : Uninit) (handle : Handler ρ) (hf : p.firstkey = true)
    (msg : Option LinkMsg) (b : Buffer) :
    readDict (onKey lib u handle) { p with msg := msg } b = readDict (onKey lib u handle) p b ∨
      readDict (onKey lib u handle) { p with msg := msg } b = ({ p with msg := msg }, none) ∧
        readDict (onKey lib u handle) p b = (p, none) := by
  rw [readDict, readDict]
  split_ifs
  · exact .inr ⟨rfl, rfl⟩
  · rw [dictLoop, dictLoop]
    split_ifs
    · cases (b.skip 1).readString with
      | none => exact .inr ⟨rfl, rfl⟩
      | some r =>
          obtain ⟨key, b₁⟩ := r
          simp only
          obtain heq | ⟨hstale, hfresh⟩ := onKey_stale lib u handle hf msg (some key) b₁
          · exact .inl (by rw [heq])
          · rw [hstale, hfresh]
            exact .inr ⟨rfl, rfl⟩
    · exact .inr ⟨rfl, rfl⟩
    · exact onKey_stale lib u handle hf msg none _

/-- The outcome does not depend on what the parser was used for before. -/
lemma feed_outcome (job : Job ρ) (p q : InboundMessageParser ρ) :
    (feed lib handle job p).2 = (feed lib handle job q).2 := by
  have h := readDict_stale lib job.memory handle (p := { q.facing job with firstkey := true })
    rfl p.msg (.ofBytes job.bytes job.after)
  have hp : ({ p.facing job with firstkey := true } : InboundMessageParser ρ) =
      { { q.facing job with firstkey := true } with msg := p.msg } := rfl
  simp only [feed, processFrom, hp]
  obtain heq | ⟨hstale, hfresh⟩ := h
  · rw [heq]
  · rw [hstale, hfresh]

/-- One parser for all buffers does as a new one for each. -/
lemma outcomes_eq (firstkey : Bool) (jobs : List (Job ρ)) (p : InboundMessageParser ρ) :
    outcomes lib handle jobs p =
      jobs.map fun job => (feed lib handle job (constructed firstkey job)).2 := by
  induction jobs generalizing p with
  | nil => rfl
  | cons job jobs ih => rw [outcomes, List.map_cons, ih, feed_outcome]

end InboundMessageParser

/-! ### Routing messages -/

namespace Routing.InboundMessageParser

/-- The message that `ParseMessageBuffer` hands to `HandleMessage`. -/
def dispatched (p : InboundMessageParser) (b : Buffer) : Option Message :=
  match parse p b with
  | (_, none) => none
  | (p, some _) => p.msg

/-- The parser is given one buffer after the other, each with what `HandleMessage` does then. -/
def outcomes : List ((Message → Bool) × Buffer) → InboundMessageParser →
    List (Bool × Option Message)
  | [], _ => []
  | (handle, b) :: jobs, p =>
      (parseMessageBuffer handle p b, p.dispatched b) :: outcomes jobs (parse p b).1

/-- One parser for all buffers does as a new one for each. -/
lemma outcomes_eq (fresh : InboundMessageParser) (jobs : List ((Message → Bool) × Buffer))
    (p : InboundMessageParser) :
    outcomes jobs p = jobs.map fun job =>
      (parseMessageBuffer job.1 fresh job.2, fresh.dispatched job.2) := by
  induction jobs generalizing p with
  | nil => rfl
  | cons job jobs ih =>
      rw [outcomes, List.map_cons, ih]
      rfl

/-- Behind the first key there is a message. -/
def HasMessage (p : InboundMessageParser) : Prop := p.firstKey = false → p.msg ≠ none

/-- An entry that is accepted leaves a message. -/
lemma hasMessage_onKey {key : Bytes} {p p' : InboundMessageParser} {b b' : Buffer}
    (h : onKey (some key) p b = (p', some b')) : HasMessage p' := by
  intro _ hnone
  simp only [onKey] at h
  split_ifs at h
  · cases hs : b.readString with
    | none => simp [hs] at h
    | some r =>
        simp only [hs] at h
        split_ifs at h with hlen hsome
        · cases h
        · rw [← (Prod.mk.inj h).1] at hnone
          rw [show (newMessage r.1).or p.msg = none from hnone] at hsome
          cases hsome
        · cases (Prod.mk.inj h).2
  · cases h
  · cases hm : p.msg with
    | none => simp [hm] at h
    | some m =>
        cases m with
        | pathLatency m =>
            rw [hm] at h
            obtain ⟨m', -, rfl⟩ := Reader.part_inv h
            cases hnone
        | pathConfirm m =>
            rw [hm] at h
            obtain ⟨m', -, rfl⟩ := Reader.part_inv h
            cases hnone

/-- Every call of `OnKey` for a buffer that goes to `msg` finds a message there. -/
lemma hasMessage_call {b : Buffer} {c : KeyCall InboundMessageParser}
    (hc : c ∈ readCalls onKey {} b) : HasMessage c.object := by
  obtain ⟨pre, post, hsplit⟩ := List.append_of_mem hc
  refine readCalls_rule (I := fun _ => HasMessage) (fun _ _ _ _ _ _ _ hk => hasMessage_onKey hk)
    (fun hf => ?_) hsplit
  cases hf

/-- `ParseMessageBuffer` finds a message to hand over. -/
lemma hasMessage_parse {p p' : InboundMessageParser} {b b' : Buffer}
    (h : parse p b = (p', some b')) : p'.msg ≠ none := by
  have hread : readDict onKey {} b = (p', some b') := h
  by_cases hend : ReachesEnd (readCalls onKey {} b)
  · obtain ⟨c, hc, hnone⟩ := hend
    rw [(readDict_of_end hc hnone).1] at hread
    simp only [onKey] at hread
    obtain ⟨rfl, hverdict⟩ := Prod.mk.inj hread
    split_ifs at hverdict with hf
    exact hasMessage_call hc (by simpa using hf)
  · have hfail := (readDict_of_not_end (P := fun _ => True) (fun _ _ _ _ => trivial) trivial hend).2
    rw [hread] at hfail
    cases hfail

end Routing.InboundMessageParser

/-- **Parsers carry nothing over.** For every sequence of buffers, accepted or given up anywhere:
what comes of each of them is what comes of it with a new parser, for a link parser (given the
same state of the session and the router) and for a routing parser. The routing parser goes to
`msg` only where there is a message. -/
theorem parsers_carry_nothing_over {ρ : Type} (lib : HostLib)
    (handle : InboundMessageParser.Handler ρ) :
    (∀ (firstkey : Bool) (jobs : List (InboundMessageParser.Job ρ)) (p : InboundMessageParser ρ),
      p.outcomes lib handle jobs = jobs.map fun job =>
        ((InboundMessageParser.constructed firstkey job).feed lib handle job).2) ∧
    (∀ (fresh : Routing.InboundMessageParser) (jobs : List ((Routing.Message → Bool) × Buffer))
      (p : Routing.InboundMessageParser),
      p.outcomes jobs = jobs.map fun job =>
        (fresh.parseMessageBuffer job.1 job.2, fresh.dispatched job.2)) ∧
    ∀ b : Buffer,
      (∀ c ∈ readCalls Routing.InboundMessageParser.onKey {} b, c.object.HasMessage) ∧
      ∀ p p' b', Routing.InboundMessageParser.parse p b = (p', some b') → p'.msg ≠ none :=
  ⟨fun firstkey jobs p => InboundMessageParser.outcomes_eq firstkey jobs p,
    fun fresh jobs p => Routing.InboundMessageParser.outcomes_eq fresh jobs p,
    fun _ => ⟨fun _ hc => Routing.InboundMessageParser.hasMessage_call hc,
      fun _ _ _ h => Routing.InboundMessageParser.hasMessage_parse h⟩⟩

end Udap
