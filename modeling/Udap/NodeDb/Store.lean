import Udap.NodeDb.Keyed

/-!
What a failed store leaves in the database.

`setRC` stores the contact before it encodes and writes it, so a failure comes too late; and a job
whose contact could not be written is invalid like one whose signature was not accepted.

* `keepsOnFailure_iff`: a failure changes nothing exactly if the contact was there;
* `verifyRC_cases`: what comes of a contact that is verified;
* `failed_store_iff`: so an invalid contact may be drawn for a hop as soon as its signature is
  accepted.
-/

namespace Udap

namespace NodeDb

variable (lib : HostLib) (db : NodeDb) (rc : RouterContact) (saved : Bool)

/-- The contact is encoded and written. -/
def Stores : Prop := Encodes lib rc ∧ saved = true

/-- If `setRC` fails the entries are those before the call. -/
def KeepsOnFailure : Prop :=
  (db.setRC lib rc saved).2 = false →
    ∀ pk, (db.setRC lib rc saved).1.entries.lookup pk = db.entries.lookup pk

/-- A contact that is found invalid can be drawn for a hop only if it could before. -/
def BarsInvalid : Prop :=
  (db.verifyRC lib rc saved).2 = false → (db.verifyRC lib rc saved).1.Selectable rc →
    db.Selectable rc

variable {lib db rc saved}

lemma setRC_eq_false : (db.setRC lib rc saved).2 = false ↔ ¬ Stores lib rc saved := by
  rw [← Bool.not_eq_true, setRC_eq_true]
  exact Iff.rfl

lemma keepsOnFailure_iff : KeepsOnFailure lib db rc saved ↔
    Stores lib rc saved ∨ db.entries.lookup rc.pubkey = some rc := by
  rw [KeepsOnFailure, setRC_eq_false, entries_setRC, AList.lookup_insert_eq_iff]
  exact or_iff_not_imp_left.symm

/-- What becomes of a contact that is verified. -/
lemma verifyRC_cases : rc.verifySig lib = false ∧ db.verifyRC lib rc saved = (db, false) ∨
    rc.verifySig lib = true ∧ db.verifyRC lib rc saved = db.setRC lib rc saved := by
  rw [verifyRC]
  cases rc.verifySig lib with
  | false => exact .inl ⟨rfl, rfl⟩
  | true => exact .inr ⟨rfl, rfl⟩

lemma selectable_setRC : (db.setRC lib rc saved).1.Selectable rc := by
  rw [selectable_iff, entries_setRC]
  exact AList.exists_lookup_insert

lemma barsInvalid_iff : BarsInvalid lib db rc saved ↔
    rc.verifySig lib = false ∨ Stores lib rc saved ∨ db.Selectable rc := by
  rw [BarsInvalid]
  rcases verifyRC_cases with ⟨hsig, heq⟩ | ⟨hsig, heq⟩
  · rw [heq]
    exact iff_of_true (fun _ hdraw => hdraw) (.inl hsig)
  · rw [heq, setRC_eq_false, or_iff_right (by rw [hsig]; exact Bool.true_eq_false_eq_False),
      or_iff_not_imp_left]
    exact ⟨fun h hfail => h hfail selectable_setRC, fun h hfail _ => h hfail⟩

/-- In a database with every contact under its own key, a contact can be drawn exactly if it is
under its key. -/
lemma Keyed.selectable_iff (h : db.Keyed) :
    db.Selectable rc ↔ db.entries.lookup rc.pubkey = some rc := by
  rw [NodeDb.selectable_iff]
  constructor
  · rintro ⟨pk, hlookup⟩
    rwa [h pk rc hlookup]
  · exact fun hlookup => ⟨rc.pubkey, hlookup⟩

/-- A failed store leaves the entries as they were exactly if the contact was among them; and a
contact whose verification fails cannot be drawn for a hop exactly if its signature was not accepted
or it could be drawn before. -/
theorem failed_store_iff (lib : HostLib) (db : NodeDb) (rc : RouterContact) (saved : Bool) :
    (KeepsOnFailure lib db rc saved ↔
      Stores lib rc saved ∨ db.entries.lookup rc.pubkey = some rc) ∧
    (BarsInvalid lib db rc saved ↔
      rc.verifySig lib = false ∨ Stores lib rc saved ∨ db.Selectable rc) :=
  ⟨keepsOnFailure_iff, barsInvalid_iff⟩

/-- A contact without addresses. -/
def addressless : RouterContact := { pubkey := List.Vector.replicate 32 66 }

/-- Its file cannot be written: it stays in a database that was empty, and can be drawn. -/
theorem not_barsInvalid_unwritten :
    ¬ (KeepsOnFailure Dht.Context.trusting {} addressless false ∧
      BarsInvalid Dht.Context.trusting {} addressless false) := by
  rintro ⟨hkeeps, -⟩
  have hfail : ¬ Stores Dht.Context.trusting addressless false := fun h => Bool.false_ne_true h.2
  have hlookup := hkeeps (setRC_eq_false.mpr hfail) addressless.pubkey
  rw [entries_setRC] at hlookup
  exact absurd hlookup (by decide)

end NodeDb

end Udap
