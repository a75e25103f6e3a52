import Udap.Iwp.Endpoint

/-!
`m_Connected` and the sessions.

The map keeps one address for an identity. `session_established` overwrites it, `UnmapAddr` erases
the first entry it finds for an address, and nothing is told when a session leaves `eEstablished`.

* `Up`: the established sessions of the map, and what the moves of a link do to them.
* `Matching`: the session whose address the map has for its identity stays established until it is
  removed as the only one with that identity.
* `matches_of_matching`: in a run of such events the map is that of the established sessions.
* `attempt_leaves_connected`: an attempt takes an established session back, which stays connected.
-/

namespace Udap.Iwp

open ByteMem

namespace Server

variable {σ ι : Type}

/-- The map has the session at `p` under the address `a`, and it is established. -/
def Up (l : Server σ ι) (a : ι) (p : ℕ) : Prop :=
  l.sessions a = some p ∧ ∃ s, l.heap p = some s ∧ s.core.isEstablished = true

section Up

variable {l l' : Server σ ι} {p : ℕ} {s s' : LinkSession σ ι}

lemma not_up_of_heap (hs : l.heap p = some s) (hest : s.core.isEstablished = false) (a : ι) :
    ¬ l.Up a p := by
  rintro ⟨-, r, hr, hup⟩
  rw [hs] at hr
  rw [← Option.some.inj hr, hest] at hup
  cases hup

/-- A session that is not established before and after the step is in the map or not. -/
lemma up_same {x : Option (LinkSession σ ι)} (hheap : l'.heap = Function.update l.heap p x)
    (hsessions : ∀ a q, q ≠ p → (l'.sessions a = some q ↔ l.sessions a = some q))
    (hbefore : ∀ a, ¬ l.Up a p) (hafter : ∀ r, x = some r → r.core.isEstablished = false) (a : ι)
    (q : ℕ) : l'.Up a q ↔ l.Up a q := by
  rcases eq_or_ne q p with rfl | hne
  · refine iff_of_false ?_ (hbefore a)
    rintro ⟨-, r, hr, hup⟩
    rw [hheap, Function.update_self] at hr
    rw [hafter r hr] at hup
    cases hup
  · rw [Up, Up, hheap, Function.update_of_ne hne, hsessions a q hne]

/-- A session of the map is written that is established before and after the step. -/
lemma up_write (hs : l.heap p = some s) (hheap : l'.heap = Function.update l.heap p (some s'))
    (hsessions : l'.sessions = l.sessions) (hest : s'.core.isEstablished = s.core.isEstablished)
    (a : ι) (q : ℕ) : l'.Up a q ↔ l.Up a q := by
  rw [Up, Up, hheap, hsessions]
  rcases eq_or_ne q p with rfl | hne
  · rw [Function.update_self, hs]
    simp [hest]
  · rw [Function.update_of_ne hne]

/-- A session of the map is deleted, or is not established any more. -/
lemma up_lost {x : Option (LinkSession σ ι)} (haddr : l.Addressed) (hs : l.heap p = some s)
    (hmap : l.sessions s.addr = some p) (hheap : l'.heap = Function.update l.heap p x)
    (hsessions : ∀ a, a ≠ s.addr → l'.sessions a = l.sessions a)
    (hafter : ∀ r, x = some r → r.core.isEstablished = false)
    (hgone : ∀ q, l'.sessions s.addr = some q → q = p) (a : ι) (q : ℕ) :
    l'.Up a q ↔ l.Up a q ∧ a ≠ s.addr := by
  rcases eq_or_ne a s.addr with rfl | hne
  · refine iff_of_false ?_ fun h => h.2 rfl
    rintro ⟨ha, r, hr, hup⟩
    obtain rfl := hgone q ha
    rw [hheap, Function.update_self] at hr
    rw [hafter r hr] at hup
    cases hup
  · rw [and_iff_left hne, Up, Up, hsessions a hne]
    refine and_congr_right fun ha => ?_
    have hqp : q ≠ p := by
      rintro rfl
      exact hne (haddr a q s ha hs).symm
    rw [hheap, Function.update_of_ne hqp]

/-- A session of the map becomes established. -/
lemma up_gained (haddr : l.Addressed) (hs : l.heap p = some s) (hmap : l.sessions s.addr = some p)
    (hheap : l'.heap = Function.update l.heap p (some s')) (hsessions : l'.sessions = l.sessions)
    (hafter : s'.core.isEstablished = true) (a : ι) (q : ℕ) :
    l'.Up a q ↔ a = s.addr ∧ q = p ∨ a ≠ s.addr ∧ l.Up a q := by
  rw [Up, Up, hheap, hsessions]
  rcases eq_or_ne a s.addr with rfl | hne
  · rw [hmap, Option.some.injEq]
    constructor
    · rintro ⟨rfl, -⟩
      exact .inl ⟨rfl, rfl⟩
    · rintro (⟨-, rfl⟩ | ⟨hne, -⟩)
      · exact ⟨rfl, s', Function.update_self .., hafter⟩
      · exact absurd rfl hne
  · refine ⟨fun ⟨ha, hr⟩ => .inr ⟨hne, ha, ?_⟩, ?_⟩
    · have hqp : q ≠ p := by
        rintro rfl
        exact hne (haddr a q s ha hs).symm
      rwa [Function.update_of_ne hqp] at hr
    · rintro (⟨heq, -⟩ | ⟨-, ha, hr⟩)
      · exact absurd heq hne
      · have hqp : q ≠ p := by
          rintro rfl
          exact hne (haddr a q s ha hs).symm
        rw [Function.update_of_ne hqp]
        exact ⟨ha, hr⟩

end Up

end Server

namespace Endpoint

open Server

variable {σ ι : Type}

/-- An established session of the map has the address `a` and the identity `pk`. -/
def Est (l : Endpoint σ ι) (a : ι) (pk : PubKey) : Prop :=
  ∃ p, l.server.Up a p ∧ l.identity p = some pk

/-- A router is connected exactly when an established session has its identity, and the map has
the address of such a session. -/
def Matches (l : Endpoint σ ι) : Prop :=
  ∀ pk, (l.hasSessionToRouter pk = true ↔ ∃ a, l.Est a pk) ∧
    ∀ a, l.connected.lookup pk = some a → l.Est a pk

/-- The hook that the end of the job calls takes the session `s` of the map out of its state, or
deletes it. -/
def Leaves (env : LinkEnv σ) (s : LinkSession σ ι) (job : CryptoJob) (ok sent : Bool) : Prop :=
  (job.OnIntro ∧ s.intro.verifies = false ∧ (s.intro.after job ok).buf = true ∧ sent = true) ∨
  (job.OnIntroack ∧ (s.introack.verifies = true → (s.introack.after job ok).buf = true)) ∨
  (job.OnSessionStart ∧ (s.start.verifies = true →
    (s.start.after job ok).buf = true ∧ env.encodeLIM s.core.peer ≠ none))

/-- The session whose address the map has for its identity stays established, unless
`TickSessions` removes it and no other session has that identity. -/
def Matching (env : LinkEnv σ) (l : Endpoint σ ι) : WorkEvent σ ι → Prop
  | .link (.complete _ p job ok sent) => ∀ s pk, l.server.heap p = some s → l.Est s.addr pk →
      l.server.sessions s.addr = some p → Leaves env s job ok sent →
      l.connected.lookup pk ≠ some s.addr
  | .link (.clear p) => ∀ s pk, l.server.heap p = some s → l.Est s.addr pk →
      l.connected.lookup pk ≠ some s.addr
  | .link (.tick now p) => ∀ s pk, l.server.heap p = some s → l.Est s.addr pk →
      s.core.timedout now = true ∨ s.core.isInvalidated = true → s.working = false →
      l.connected.lookup pk = some s.addr → ∀ a, a ≠ s.addr → ¬ l.Est a pk
  | _ => True

section Matches

variable {l l' : Endpoint σ ι}

/-- A session that is not established gives its address no identity. -/
lemma not_est {a : ι} {p : ℕ} {s : LinkSession σ ι} (hmap : l.server.sessions a = some p)
    (hs : l.server.heap p = some s) (hbefore : s.core.isEstablished = false) (pk : PubKey) :
    ¬ l.Est a pk := by
  rintro ⟨q, hup, -⟩
  have hqp : q = p := Option.some.inj (hup.1.symm.trans hmap)
  exact not_up_of_heap hs hbefore a (hqp ▸ hup)

lemma Est.identity_unique {a : ι} {pk pk' : PubKey} (h : l.Est a pk) (h' : l.Est a pk') :
    pk = pk' := by
  obtain ⟨p, hp, hid⟩ := h
  obtain ⟨q, hq, hid'⟩ := h'
  have hpq : p = q := Option.some.inj (hp.1.symm.trans hq.1)
  rw [hpq, hid'] at hid
  exact (Option.some.inj hid).symm

lemma Matches.lookup_isSome (h : l.Matches) {a : ι} {pk : PubKey} (hest : l.Est a pk) :
    ∃ b, l.connected.lookup pk = some b :=
  Option.isSome_iff_exists.mp ((h pk).1.mpr ⟨a, hest⟩)

/-- It is enough that the addresses of the map are right, and that every session has one. -/
lemma Matches.intro (hright : ∀ pk a, l.connected.lookup pk = some a → l.Est a pk)
    (hall : ∀ pk a, l.Est a pk → ∃ b, l.connected.lookup pk = some b) : l.Matches := by
  refine fun pk => ⟨⟨fun hsome => ?_, ?_⟩, hright pk⟩
  · obtain ⟨a, ha⟩ := Option.isSome_iff_exists.mp hsome
    exact ⟨a, hright pk a ha⟩
  · rintro ⟨a, hest⟩
    exact Option.isSome_iff_exists.mpr (hall pk a hest)

lemma Matches.same (h : l.Matches) (hconn : l'.connected = l.connected)
    (hest : ∀ a pk, l'.Est a pk ↔ l.Est a pk) : l'.Matches := by
  refine .intro (fun pk a ha => ?_) fun pk a ha => ?_
  · rw [hconn] at ha
    exact (hest a pk).mpr ((h pk).2 a ha)
  · rw [hconn]
    exact h.lookup_isSome ((hest a pk).mp ha)

/-- A session is lost whose address the map does not have for its identity. -/
lemma Matches.leave (h : l.Matches) (a₀ : ι) (hconn : l'.connected = l.connected)
    (hest : ∀ a pk, l'.Est a pk ↔ l.Est a pk ∧ a ≠ a₀)
    (hother : ∀ pk, l.Est a₀ pk → l.connected.lookup pk ≠ some a₀) : l'.Matches := by
  refine .intro (fun pk a ha => ?_) fun pk a ha => ?_
  · rw [hconn] at ha
    have hup := (h pk).2 a ha
    refine (hest a pk).mpr ⟨hup, ?_⟩
    rintro rfl
    exact hother pk hup ha
  · rw [hconn]
    exact h.lookup_isSome ((hest a pk).mp ha).1

/-- A session becomes established, at an address that had none. -/
lemma Matches.enter (h : l.Matches) (a₀ : ι) (pk₀ : PubKey)
    (hconn : l'.connected = l.connected.insert pk₀ a₀) (hnone : ∀ pk, ¬ l.Est a₀ pk)
    (hest : ∀ a pk, l'.Est a pk ↔ a = a₀ ∧ pk = pk₀ ∨ a ≠ a₀ ∧ l.Est a pk) : l'.Matches := by
  refine .intro (fun pk a ha => ?_) fun pk a ha => ?_
  · rw [hconn] at ha
    rcases eq_or_ne pk pk₀ with rfl | hne
    · rw [AList.lookup_insert] at ha
      exact (hest a pk).mpr (.inl ⟨(Option.some.inj ha).symm, rfl⟩)
    · rw [AList.lookup_insert_ne hne] at ha
      have hup := (h pk).2 a ha
      refine (hest a pk).mpr (.inr ⟨?_, hup⟩)
      rintro rfl
      exact hnone pk hup
  · rw [hconn]
    rcases eq_or_ne pk pk₀ with rfl | hne
    · exact ⟨a₀, AList.lookup_insert _⟩
    · rw [AList.lookup_insert_ne hne]
      rcases (hest a pk).mp ha with ⟨-, heq⟩ | ⟨-, hup⟩
      · exact absurd heq hne
      · exact h.lookup_isSome hup

variable [DecidableEq ι]

/-- A session is removed with the entry of the map for its address. -/
lemma Matches.unmap (h : l.Matches) (a₀ : ι)
    (hconn : l'.connected = (l.unmapAddr (some a₀)).connected)
    (hest : ∀ a pk, l'.Est a pk ↔ l.Est a pk ∧ a ≠ a₀)
    (halone : ∀ pk, l.connected.lookup pk = some a₀ → ∀ a, a ≠ a₀ → ¬ l.Est a pk) :
    l'.Matches := by
  simp only [unmapAddr] at hconn
  split at hconn
  · rename_i hnone
    refine h.leave a₀ hconn hest fun pk _ ha => ?_
    have hmem := List.find?_eq_none.mp hnone ⟨pk, a₀⟩ (AList.mem_lookup_iff.mp ha)
    exact hmem (decide_eq_true rfl)
  · rename_i item hitem
    obtain ⟨k, b⟩ := item
    have hb : b = a₀ := by simpa using List.find?_some hitem
    have hk : l.connected.lookup k = some a₀ :=
      hb ▸ AList.mem_lookup_iff.mpr (List.mem_of_find?_eq_some hitem)
    -- the entry that is found is the one of the session, since an address has one identity
    have hup := (h k).2 a₀ hk
    refine .intro (fun pk a ha => ?_) fun pk a ha => ?_
    · rw [hconn] at ha
      rcases eq_or_ne pk k with rfl | hne
      · rw [AList.lookup_erase] at ha
        cases ha
      · rw [AList.lookup_erase_ne hne] at ha
        have hup' := (h pk).2 a ha
        refine (hest a pk).mpr ⟨hup', ?_⟩
        rintro rfl
        exact hne (hup'.identity_unique hup)
    · obtain ⟨hup', hne⟩ := (hest a pk).mp ha
      rw [hconn]
      rcases eq_or_ne pk k with rfl | hne'
      · exact absurd hup' (halone pk hk a hne)
      · rw [AList.lookup_erase_ne hne']
        exact h.lookup_isSome hup'

end Matches

section Step

variable {env : LinkEnv σ} {p₀ : σ} {pubkey : σ → PubKey} {l l' : Endpoint σ ι}
  {e : LinkEvent σ ι} {p : ℕ} {s s' : LinkSession σ ι}

/-- What an event does to the state of a session. -/
lemma established_of_change (hc : Change env l.server p s e s') :
    s'.core.isEstablished = s.core.isEstablished ∨
      (s'.core.isEstablished = false ∧ ∃ now job ok sent, e = .complete now p job ok sent ∧
        Leaves env s job ok sent) ∨
      (s'.core.isEstablished = true ∧ ∃ now frame, e = .decrypted now p frame) := by
  cases hc with
  | intro now src sz _ hstate =>
      refine .inl ?_
      change false = s.core.isEstablished
      rw [Session.isEstablished, hstate]
      rfl
  | generatedIntro now job ok sent hjob hon hbuf hhook =>
      rw [LinkSession.handleGeneratedIntro]
      split_ifs with hsent
      · have hboth := (Bool.and_eq_true_iff.mp hsent)
        exact .inr (.inl ⟨rfl, now, job, ok, sent, rfl, .inl ⟨hon, hhook, hboth.1, hboth.2⟩⟩)
      · exact .inl rfl
  | verifiedIntro now job ok sent =>
      rw [LinkSession.handleVerifyIntro]
      split_ifs <;> exact .inl rfl
  | verifiedIntroack now job ok sent hjob hon hbuf hhook =>
      rw [LinkSession.handleVerifyIntroack]
      split_ifs with hafter
      · exact .inr (.inl ⟨rfl, now, job, ok, sent, rfl, .inr (.inl ⟨hon, fun _ => hafter⟩)⟩)
      · exact .inl rfl
  | generatedSessionStart now job ok sent hjob hon hbuf hhook =>
      refine .inr (.inl ⟨rfl, now, job, ok, sent, rfl, .inr (.inr ⟨hon, fun hverifies => ?_⟩)⟩)
      rw [hhook] at hverifies
      cases hverifies
  | verifiedSessionStart now job ok sent hjob hon hbuf hhook =>
      rw [LinkSession.handleVerifySessionStart]
      split_ifs with hafter
      · change (s.core.sendLIM env now).isEstablished = _ ∨ _
        -- the session leaves its state only if there is a link introduction to send
        cases hlim : env.encodeLIM s.core.peer with
        | none =>
            rw [Session.sendLIM, hlim]
            exact .inl rfl
        | some m =>
            refine .inr (.inl ⟨?_, now, job, ok, sent, rfl,
              .inr (.inr ⟨hon, fun _ => ⟨hafter, ?_⟩⟩)⟩)
            · change (s.core.sendLIM env now).isEstablished = false
              rw [Session.sendLIM, hlim]
              rfl
            · rw [hlim]
              exact Option.some_ne_none m
      · exact .inl rfl
  | frameRead now buf sz c hjob hcall =>
      -- a frame may bring message 0, which is the one way in
      rcases state_call_frame hcall with hstate | hstate
      · refine .inl ?_
        change c.isEstablished = s.core.isEstablished
        rw [Session.isEstablished, hstate]
        rfl
      · refine .inr (.inr ⟨?_, now, _, rfl⟩)
        change c.isEstablished = true
        rw [Session.isEstablished, hstate]
        rfl
  | tick now c _ htick =>
      refine .inl ?_
      change c.isEstablished = s.core.isEstablished
      rw [Session.isEstablished, show c.state = s.core.state from state_tick htick]
      rfl
  | keepalive =>
      refine .inl ?_
      change s.core.sendKeepalive.isEstablished = s.core.isEstablished
      rw [Session.sendKeepalive]
      split_ifs <;> rfl
  | _ => exact .inl rfl

/-- Where no address leaves the map nothing is removed. -/
lemma removedAddr_eq_none [DecidableEq ι] {server : Server σ ι}
    (h : ∀ a, server.sessions a = none → l.server.sessions a = none) :
    l.server.removedAddr server e = none := by
  rw [removedAddr, Option.bind_eq_none_iff]
  intro p _
  rw [Option.bind_eq_none_iff]
  intro s _
  refine if_neg fun hrem => ?_
  rw [h s.addr hrem.2] at hrem
  cases hrem.1

/-- `session_established` is called for a session that was not established before. -/
lemma newlyEstablished_of_change {server : Server σ ι} (hc : Change env l.server p s e s')
    (hs : l.server.heap p = some s) (hs' : server.heap p = some s')
    (hest : s'.core.isEstablished = true → s.core.isEstablished = true) :
    l.server.newlyEstablished pubkey server e = none := by
  cases hc with
  | frameLost now hjob =>
      simp only [newlyEstablished, hs, hs', Option.bind_some]
      exact if_neg fun hnew => by rw [hest hnew.2] at hnew; cases hnew.1
  | frameRead now buf sz c hjob hcall =>
      simp only [newlyEstablished, hs, hs', Option.bind_some]
      exact if_neg fun hnew => by rw [hest hnew.2] at hnew; cases hnew.1
  | _ => rfl

lemma est_same (hid : l'.identity = l.identity) (hup : ∀ a q, l'.server.Up a q ↔ l.server.Up a q)
    (a : ι) (pk : PubKey) : l'.Est a pk ↔ l.Est a pk := by
  simp only [Est, hid, hup]

lemma est_lost {a₀ : ι} (hid : l'.identity = l.identity)
    (hup : ∀ a q, l'.server.Up a q ↔ l.server.Up a q ∧ a ≠ a₀) (a : ι) (pk : PubKey) :
    l'.Est a pk ↔ l.Est a pk ∧ a ≠ a₀ := by
  simp only [Est, hid, hup]
  exact ⟨fun ⟨q, ⟨hq, hne⟩, hpk⟩ => ⟨⟨q, hq, hpk⟩, hne⟩,
    fun ⟨⟨q, hq, hpk⟩, hne⟩ => ⟨q, ⟨hq, hne⟩, hpk⟩⟩

/-- A session outside of the map. -/
lemma not_up_of_out (hformed : Formed l.server) (hs : l.server.heap p = some s)
    (hmap : l.server.sessions s.addr ≠ some p) (a : ι) : ¬ l.server.Up a p :=
  fun hup => hformed.out hs hmap a hup.1

lemma Newcomer.not_established (h : Newcomer s) : s.core.isEstablished = false := by
  rw [Session.isEstablished, h.state]
  rfl

variable [DecidableEq ι]

/-- The event makes another session of one that is in the map, and leaves the map. -/
lemma Matches.change (h : l.Matches) (hformed : Formed l.server) (hm : Matching env l (.link e))
    (hl : l.step env p₀ pubkey (.link e) = some l') (hs : l.server.heap p = some s)
    (hmap : l.server.sessions s.addr = some p) (hc : Change env l.server p s e s')
    (hheap : l'.server.heap = Function.update l.server.heap p (some s'))
    (hsessions : l'.server.sessions = l.server.sessions) : l'.Matches := by
  have hrem : l.server.removedAddr l'.server e = none :=
    removedAddr_eq_none fun a ha => by rwa [hsessions] at ha
  have hs' : l'.server.heap p = some s' := by rw [hheap, Function.update_self]
  have hsame (hest : s'.core.isEstablished = s.core.isEstablished) : l'.Matches := by
    have hnew : l.server.newlyEstablished pubkey l'.server e = none :=
      newlyEstablished_of_change hc hs hs' fun h => hest ▸ h
    obtain ⟨hconn, hid⟩ := step_connected_same hl hnew hrem
    exact h.same hconn (est_same hid (up_write hs hheap hsessions hest))
  rcases established_of_change hc with hest | ⟨hfalse, now, job, ok, sent, rfl, hleaves⟩ |
    ⟨htrue, now, frame, rfl⟩
  · exact hsame hest
  · obtain ⟨hconn, hid⟩ := step_connected_same hl rfl hrem
    refine h.leave s.addr hconn (est_lost hid (up_lost hformed.addressed hs hmap hheap
      (fun a _ => by rw [hsessions]) (fun r hr => Option.some.inj hr ▸ hfalse) fun q hq => ?_))
      fun pk hest => hm s pk hs hest hmap hleaves
    rw [hsessions, hmap] at hq
    exact (Option.some.inj hq).symm
  -- established by a frame: the map takes the address, unless the session had been there
  · cases hbefore : s.core.isEstablished with
    | true => exact hsame (htrue.trans hbefore.symm)
    | false =>
        have hnew : l.server.newlyEstablished pubkey l'.server (.decrypted now p frame) =
            some (p, s'.addr, pubkey s'.core.peer) := by
          simp only [newlyEstablished, hs, hs', Option.bind_some]
          exact if_pos ⟨hbefore, htrue⟩
        rw [hc.addr] at hnew
        obtain ⟨hconn, hid⟩ := step_connected_map hl hnew hrem
        have hgained := up_gained hformed.addressed hs hmap hheap hsessions htrue
        refine h.enter s.addr (pubkey s'.core.peer) hconn (not_est hmap hs hbefore) fun a pk => ?_
        simp only [Est, hgained, hid]
        constructor
        · rintro ⟨q, ⟨rfl, rfl⟩ | ⟨hne, hup⟩, hpk⟩
          · rw [Function.update_self] at hpk
            exact .inl ⟨rfl, (Option.some.inj hpk).symm⟩
          · have hqp : q ≠ p := by
              rintro rfl
              exact hne (hformed.addressed a q s hup.1 hs).symm
            rw [Function.update_of_ne hqp] at hpk
            exact .inr ⟨hne, q, hup, hpk⟩
        · rintro (⟨rfl, rfl⟩ | ⟨hne, q, hup, hpk⟩)
          · exact ⟨p, .inl ⟨rfl, rfl⟩, Function.update_self ..⟩
          · have hqp : q ≠ p := by
              rintro rfl
              exact hne (hformed.addressed a q s hup.1 hs).symm
            exact ⟨q, .inr ⟨hne, hup⟩, by rw [Function.update_of_ne hqp, hpk]⟩

/-- A step that changes nothing of the established sessions. -/
lemma Matches.quiet (h : l.Matches) (hl : l.step env p₀ pubkey (.link e) = some l')
    (hnew : l.server.newlyEstablished pubkey l'.server e = none)
    (hkept : ∀ a, l'.server.sessions a = none → l.server.sessions a = none)
    (hup : ∀ a q, l'.server.Up a q ↔ l.server.Up a q) : l'.Matches := by
  obtain ⟨hconn, hid⟩ := step_connected_same hl hnew (removedAddr_eq_none hkept)
  exact h.same hconn (est_same hid hup)

/-- A session is removed. -/
lemma Matches.remove (h : l.Matches) (hformed : Formed l.server) (hm : Matching env l (.link e))
    (hl : l.step env p₀ pubkey (.link e) = some l') (hs : l.server.heap p = some s)
    (hmap : l.server.sessions s.addr = some p) (hr : Removes l.server p s e)
    (hheap : l'.server.heap = Function.update l.server.heap p none)
    (hsessions : l'.server.sessions = Function.update l.server.sessions s.addr none) :
    l'.Matches := by
  have hlost := up_lost hformed.addressed hs hmap hheap
    (fun a hne => by rw [hsessions, Function.update_of_ne hne]) (fun r hr => (by cases hr))
    fun q hq => by rw [hsessions, Function.update_self] at hq; cases hq
  have hgone : l'.server.sessions s.addr = none := by rw [hsessions, Function.update_self]
  have hin : (l.server.sessions s.addr).isSome = true := by rw [hmap]; rfl
  have hrem (hreach : l.server.removable e = some p) :
      l.server.removedAddr l'.server e = some s.addr := by
    simp only [removedAddr, hreach, hs, Option.bind_some]
    exact if_pos ⟨hin, hgone⟩
  cases hr with
  | big now src sz hsrc hstate hsz =>
      obtain ⟨hconn, hid⟩ := step_connected_unmap hl rfl (hrem hsrc)
      have hbefore : s.core.isEstablished = false := by
        rw [Session.isEstablished, hstate]
        rfl
      exact h.unmap s.addr hconn (est_lost hid hlost) fun pk hpk =>
        absurd ((h pk).2 s.addr hpk) (not_est hmap hs hbefore pk)
  | tick now hcause hworking =>
      obtain ⟨hconn, hid⟩ := step_connected_unmap hl rfl (hrem rfl)
      exact h.unmap s.addr hconn (est_lost hid hlost) fun pk hpk =>
        hm s pk hs ((h pk).2 s.addr hpk) hcause hworking hpk
  | clear =>
      obtain ⟨hconn, hid⟩ := step_connected_same hl rfl rfl
      exact h.leave s.addr hconn (est_lost hid hlost) fun pk hest => hm s pk hs hest

/-- A session is deleted that the map keeps, if it has it. -/
lemma Matches.dropped (h : l.Matches) (hformed : Formed l.server) (hm : Matching env l (.link e))
    (hl : l.step env p₀ pubkey (.link e) = some l') (hs : l.server.heap p = some s)
    (hd : Drops l.server p s e) (hheap : l'.server.heap = Function.update l.server.heap p none)
    (hsessions : l'.server.sessions = l.server.sessions) : l'.Matches := by
  have hnew : l.server.newlyEstablished pubkey l'.server e = none := by
    cases hd <;> rfl
  have hkept (a : ι) (ha : l'.server.sessions a = none) : l.server.sessions a = none := by
    rwa [hsessions] at ha
  by_cases hmap : l.server.sessions s.addr = some p
  · obtain ⟨hconn, hid⟩ := step_connected_same hl hnew (removedAddr_eq_none hkept)
    have hlost := up_lost hformed.addressed hs hmap hheap (fun a _ => by rw [hsessions])
      (fun r hr => (by cases hr)) fun q hq => by
        rw [hsessions, hmap] at hq
        exact (Option.some.inj hq).symm
    refine h.leave s.addr hconn (est_lost hid hlost) fun pk hest => ?_
    cases hd with
    | big now src sz hsrc hstate hsz =>
        have hbefore : s.core.isEstablished = false := by
          rw [Session.isEstablished, hstate]
          rfl
        exact absurd hest (not_est hmap hs hbefore pk)
    | introack now job ok sent hjob hon hhook =>
        refine hm s pk hs hest hmap (.inr (.inl ⟨hon, fun hverifies => ?_⟩))
        rw [hhook] at hverifies
        cases hverifies
  · exact h.quiet hl hnew hkept (up_same hheap (fun a q _ => by rw [hsessions])
      (not_up_of_out hformed hs hmap) fun r hr => (by cases hr))

/-- A session comes into the map that is not established. -/
lemma Matches.mapped (h : l.Matches) (hl : l.step env p₀ pubkey (.link e) = some l')
    (hnew : l.server.newlyEstablished pubkey l'.server e = none) {a₀ : ι}
    (hnone : l.server.sessions a₀ = none) (hup : ∀ a, ¬ l.server.Up a p)
    (hheap : l'.server.heap = Function.update l.server.heap p (some s'))
    (hsessions : l'.server.sessions = Function.update l.server.sessions a₀ (some p))
    (hs' : s'.core.isEstablished = false) : l'.Matches := by
  refine h.quiet hl hnew (fun a ha => ?_) (up_same hheap (fun a q hq => ?_) hup
    fun r hr => Option.some.inj hr ▸ hs')
  · rw [hsessions] at ha
    rcases eq_or_ne a a₀ with rfl | hne
    · exact hnone
    · rwa [Function.update_of_ne hne] at ha
  · rw [hsessions]
    refine sessions_update_iff (fun heq => hq (Option.some.inj heq).symm) ?_
    rw [hnone]
    exact (Option.some_ne_none q).symm

/-- A step of the sessions keeps the map that of the established ones. -/
lemma Matches.link (h : l.Matches) (hformed : Formed l.server) (hm : Matching env l (.link e))
    (hl : l.step env p₀ pubkey (.link e) = some l') : l'.Matches := by
  have hmade (a : ι) : ¬ l.server.Up a l.server.made := fun hup =>
    absurd (hformed.made a _ hup.1) (lt_irrefl _)
  cases step_moved hformed.addressed (step_link hl).1 with
  | quiet he hheap hsessions hmade' =>
      refine h.quiet hl ?_ (fun a ha => by rwa [hsessions] at ha) fun a q => ?_
      · rcases he with rfl | ⟨now, src, sz, rfl⟩ <;> rfl
      · rw [Up, Up, hheap, hsessions]
  | change p s s' hs hc hheap hsessions hmade' =>
      -- a session outside of the map is a newcomer, which is not established
      by_cases hmap : l.server.sessions s.addr = some p
      · exact h.change hformed hm hl hs hmap hc hheap hsessions
      · have hnew := (hformed.inbound p s hs).resolve_left hmap
        have hnew' := (hc.newcomer (hformed.out hs hmap) hnew).1
        refine h.quiet hl (newlyEstablished_of_change hc hs
          (by rw [hheap, Function.update_self]) fun hest => ?_)
          (fun a ha => by rwa [hsessions] at ha)
          (up_same hheap (fun a q _ => by rw [hsessions]) (not_up_of_out hformed hs hmap)
            fun r hr => Option.some.inj hr ▸ Newcomer.not_established hnew')
        rw [Newcomer.not_established hnew'] at hest
        cases hest
  | arrived now src sz he hnone hsz hheap hsessions hmade' =>
      subst he
      exact h.quiet hl rfl (fun a ha => by rwa [hsessions] at ha)
        (up_same hheap (fun a q _ => by rw [hsessions]) hmade fun r hr => Option.some.inj hr ▸ rfl)
  | refused now src sz he hnone hsz hheap hsessions hmade' =>
      subst he
      exact h.quiet hl rfl (fun a ha => by rwa [hsessions] at ha)
        (up_same hheap (fun a q _ => by rw [hsessions]) hmade fun r hr => (by cases hr))
  | attempted now dst k id he hnone hheap hsessions hmade' =>
      subst he
      exact h.mapped hl rfl hnone hmade hheap hsessions rfl
  | dropped p s hs hd hheap hsessions hmade' =>
      exact h.dropped hformed hm hl hs hd hheap hsessions
  | removed p s hs hmap hr hheap hsessions hmade' =>
      exact h.remove hformed hm hl hs hmap hr hheap hsessions
  | tracked now p s job ok sent he hs hjob hon hhook hafter hnone hheap hsessions hmade' =>
      subst he
      have hmap : l.server.sessions s.addr ≠ some p := hnone ▸ (Option.some_ne_none p).symm
      have hnew := (hformed.inbound p s hs).resolve_left hmap
      refine h.mapped hl rfl hnone (not_up_of_out hformed hs hmap) hheap hsessions ?_
      rw [LinkSession.introackSent]
      split_ifs
      · rfl
      · have hbefore := Newcomer.not_established hnew
        exact hbefore

lemma Matches.step (h : l.Matches) (hformed : Formed l.server) {e : WorkEvent σ ι}
    (hm : Matching env l e) (hl : l.step env p₀ pubkey e = some l') : l'.Matches := by
  cases e with
  | link e => exact h.link hformed hm hl
  | encrypted p =>
      rw [Endpoint.step] at hl
      split_ifs at hl
      obtain rfl := Option.some.inj hl
      exact h
  | rehash m =>
      rw [Endpoint.step] at hl
      split_ifs at hl with hperm
      obtain rfl := Option.some.inj hl
      have hlookup (pk : PubKey) : m.lookup pk = l.connected.lookup pk := AList.perm_lookup hperm
      intro pk
      have hpk := h pk
      rw [hasSessionToRouter, ← hlookup pk] at hpk
      exact hpk

lemma formed_step (hformed : Formed l.server) {e : WorkEvent σ ι}
    (hl : l.step env p₀ pubkey e = some l') : Formed l'.server := by
  cases e with
  | link e => exact hformed.step (step_link hl).1
  | encrypted p =>
      rw [Endpoint.step] at hl
      split_ifs at hl
      obtain rfl := Option.some.inj hl
      exact hformed
  | rehash m =>
      rw [Endpoint.step] at hl
      split_ifs at hl
      obtain rfl := Option.some.inj hl
      exact hformed

/-- In a run that keeps the session established whose address the map has, and removes it as the
only one with its identity, the map is that of the established sessions. -/
theorem matches_of_matching (env : LinkEnv σ) (p₀ : σ) (pubkey : σ → PubKey) (l : Endpoint σ ι)
    (h : l.ReachableBy env p₀ pubkey (Matching env)) : l.Matches := by
  suffices hboth : Formed l.server ∧ l.Matches from hboth.2
  induction h with
  | refl =>
      refine ⟨formed_init, .intro (fun pk a ha => (by cases ha)) fun pk a hest => ?_⟩
      obtain ⟨p, hup, -⟩ := hest
      cases hup.1
  | tail _ hstep ih =>
      obtain ⟨e, hm, hl⟩ := hstep
      exact ⟨formed_step ih.1 hl, ih.2.step ih.1 hm hl⟩

end Step

/-! ### An established session -/

/-- A link on which messages with one hash travel. -/
abbrev shortEnv : LinkEnv Unit := LinkEnv.discarding shortHash

/-- All peers have the same identity. -/
def samePubkey (_ : Unit) : PubKey := zeroBlob 32

/-- While no session was established every event is matching. -/
lemma matching_of_identity {l : Endpoint Unit Unit} (h : ∀ p, l.identity p = none)
    (e : WorkEvent Unit Unit) : Matching shortEnv l e := by
  have hest (a : Unit) (pk : PubKey) : ¬ l.Est a pk := by
    rintro ⟨p, -, hp⟩
    rw [h p] at hp
    cases hp
  cases e with
  | link e =>
      cases e with
      | complete => exact fun s pk _ hup => absurd hup (hest _ _)
      | clear => exact fun s pk _ hup => absurd hup (hest _ _)
      | tick => exact fun s pk _ hup => absurd hup (hest _ _)
      | _ => trivial
  | _ => trivial

/-- The handshake of an outbound session, up to its first frame. -/
def begun : List (LinkEvent Unit Unit) := [.tryEstablish 0 (), .complete 0 0 .genIntro true true,
  .recvfrom 0 () 96, .complete 0 0 .verifyIntroack true true,
  .complete 0 0 .genSessionStart true true, .recvfrom 0 () 96]

/-- A run of events that read no frame establishes no session. -/
lemma reachableBy_of_handshake (es : List (LinkEvent Unit Unit)) (l₀ : Endpoint Unit Unit)
    (hes : ∀ e ∈ es, ∀ now p frame, e ≠ .decrypted now p frame)
    (h₀ : l₀.ReachableBy shortEnv () samePubkey (Matching shortEnv))
    (hid : ∀ p, l₀.identity p = none) {server : Server Unit Unit}
    (hserver : es.foldlM (fun l e => l.step shortEnv () e) l₀.server = some server) :
    ∃ l : Endpoint Unit Unit, l.server = server ∧
      l.ReachableBy shortEnv () samePubkey (Matching shortEnv) := by
  induction es generalizing l₀ with
  | nil => exact ⟨l₀, Option.some.inj hserver, h₀⟩
  | cons e es ih =>
      obtain ⟨server₁, hstep, hrest⟩ := Option.bind_eq_some_iff.mp hserver
      obtain ⟨l₁, hl₁, rfl⟩ := exists_step_link samePubkey hstep
      have hnew : l₀.server.newlyEstablished samePubkey l₁.server e = none := by
        cases e with
        | decrypted now p frame => exact absurd rfl (hes _ List.mem_cons_self now p frame)
        | _ => rfl
      refine ih l₁ (fun e he => hes e (List.mem_cons_of_mem _ he))
        (.tail h₀ ⟨_, matching_of_identity hid _, hl₁⟩) (fun p => ?_) hrest
      rw [step_identity hl₁ hnew]
      exact hid p

/-- After the handshake and a frame with a link introduction there is an established session. -/
lemma exists_established : ∃ (l : Endpoint Unit Unit) (s : LinkSession Unit Unit),
    l.ReachableBy shortEnv () samePubkey (Matching shortEnv) ∧ l.Est () (zeroBlob 32) ∧
      l.server.heap 0 = some s ∧ l.server.sessions () = some 0 := by
  obtain ⟨server, s, hserver, hs, hmap, hjob, hrx, hbefore⟩ : ∃ (server : Server Unit Unit)
      (s : LinkSession Unit Unit),
      begun.foldlM (fun l e => l.step shortEnv () e) {} = some server ∧ server.heap 0 = some s ∧
      server.sessions () = some 0 ∧ CryptoJob.decryptFrame ∈ s.jobs ∧ 0 ∉ s.core.frame.rx ∧
      s.core.isEstablished = false := ⟨_, _, rfl, rfl, rfl, by decide, by decide, rfl⟩
  obtain ⟨l, rfl, hrun⟩ := reachableBy_of_handshake begun {} (by simp [begun]) .refl
    (fun _ => rfl) hserver
  obtain ⟨c, hc, hest⟩ := call_shortFrame hrx
  let frame := TransitMessage.xmitFrame shortHash 0 shortMessage.1 0
  have hstep : l.server.step shortEnv () (.decrypted 0 0 (some (frame, frame.length))) =
      some (l.server.processed 0 s.frameEnded c) := by
    simp only [Server.step, hs, Option.bind_some, if_pos hjob, Server.decrypted]
    rw [hc]
    rfl
  obtain ⟨l', hl', hserver'⟩ := exists_step_link samePubkey hstep
  have hs' : l'.server.heap 0 = some (s.frameEnded.setCore c) := by
    rw [hserver']
    exact processed_heap_self 0 s.frameEnded c l.server
  have hmap' : l'.server.sessions () = some 0 := by
    rw [hserver', processed]
    split_ifs <;> exact hmap
  have hup : c.isEstablished = true := beq_iff_eq.mpr hest
  have hnew : l.server.newlyEstablished samePubkey l'.server
      (.decrypted 0 0 (some (frame, frame.length))) = some (0, (), zeroBlob 32) := by
    simp only [newlyEstablished, hs, hs', Option.bind_some]
    exact if_pos ⟨hbefore, hup⟩
  obtain ⟨-, hid⟩ := step_connected_map hl' hnew rfl
  exact ⟨l', _, .tail hrun ⟨.link (.decrypted ..), trivial, hl'⟩, ⟨0, ⟨hmap', _, hs', hup⟩,
    by rw [hid, Function.update_self]⟩, hs', hmap'⟩

theorem matches_of_matching_established : ∃ l : Endpoint Unit Unit,
    l.Est () (zeroBlob 32) ∧ l.Matches := by
  obtain ⟨l, s, hrun, hest, -⟩ := exists_established
  exact ⟨l, hest, matches_of_matching shortEnv () samePubkey l hrun⟩

/-- An attempt to the address of an established session takes it back to its intro, and the router
stays connected. -/
theorem attempt_leaves_connected : ¬ ∀ (env : LinkEnv Unit) (pubkey : Unit → PubKey)
    (l : Endpoint Unit Unit), l.ReachableBy env () pubkey (fun _ _ => True) → l.Matches := by
  intro h
  obtain ⟨l, s, hrun, hest, hs, hmap⟩ := exists_established
  have hreach := hrun.any
  obtain ⟨_, _, s₂, h₁, h₂, hs₂, hback, hsessions⟩ :=
    attempt_enters_introSent shortEnv () () hmap hs
  obtain ⟨l₁, hl₁, rfl⟩ := exists_step_link samePubkey h₁
  obtain ⟨l₂, hl₂, rfl⟩ := exists_step_link samePubkey h₂
  obtain ⟨hconn₁, -⟩ := step_connected_same hl₁ rfl rfl
  obtain ⟨hconn₂, -⟩ := step_connected_same hl₂ rfl rfl
  have hconnected : l₂.hasSessionToRouter (zeroBlob 32) = true := by
    rw [hasSessionToRouter, hconn₂, hconn₁]
    exact (h _ _ l hreach (zeroBlob 32)).1.mpr ⟨(), hest⟩
  obtain ⟨_, hest₂⟩ := (h _ _ l₂ (.tail (.tail hreach ⟨_, trivial, hl₁⟩) ⟨_, trivial, hl₂⟩)
    (zeroBlob 32)).1.mp hconnected
  have hmap₂ : l₂.server.sessions () = some 0 := by rw [hsessions, hmap]
  refine not_est hmap₂ hs₂ ?_ _ hest₂
  rw [Session.isEstablished, hback]
  rfl

end Endpoint

end Udap.Iwp
