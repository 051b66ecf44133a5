import OpenHop.Companion.ContactStore
import OpenHop.Data.FirstMin

/-! # The policy of the contact store

A full store makes room for a new contact by removing the one that was modified longest ago
and is neither a favourite nor transient; transient contacts only replace each other.
-/

namespace OpenHop

namespace ContactStore

variable {s : ContactStore} {c : Contact} {key : Bytes}

/-- A contact that may have to go for another one: neither a favourite nor transient. -/
def isEvictable (c : Contact) : Bool := c.flags &&& 0x01 = 0 ∧ c.advType ≠ advTypeNone

def isTransient (c : Contact) : Bool := c.advType = advTypeNone

/-- The contact of `key` was modified longest ago of those that satisfy `p`, and of several it is
the first in the order of insertion. -/
def Oldest (s : ContactStore) (p : Contact → Bool) (key : Bytes) : Prop :=
  ∃ c, FirstMin (fun e => e.2.lastmod) (fun e => p e.2) s.contacts.entries (key, c)

theorem Oldest.getByKey {p : Contact → Bool} (h : s.Oldest p key) :
    ∃ c, s.getByKey key = some c ∧ p c = true := by
  obtain ⟨c, hc⟩ := h
  exact ⟨c, Dict.get?_of_mem hc.mem.1, hc.mem.2⟩

theorem older_eq (oldest : ℕ × Option Bytes) (e : Bytes × Contact) :
    older oldest e = if isEvictable e.2 = true ∧ e.2.lastmod < oldest.1
      then (e.2.lastmod, some e.1) else oldest := by
  simp only [older, isEvictable, decide_eq_true_eq, and_assoc]

/-- The scan for the oldest contact is an argmin, as all times of modification are below its
start. -/
theorem foldl_older {entries : List (Bytes × Contact)}
    (h : ∀ e ∈ entries, e.2.lastmod < 0xFFFFFFFF) :
    entries.foldl older (0xFFFFFFFF, none) =
      match (entries.filter fun e => isEvictable e.2).argmin fun e => e.2.lastmod with
      | none => (0xFFFFFFFF, none)
      | some e => (e.2.lastmod, some e.1) := by
  induction entries using List.reverseRecOn with
  | nil => rfl
  | append_singleton entries e ih =>
    have hlt := h e (List.mem_append_right _ List.mem_cons_self)
    rw [List.foldl_append, ih fun x hx => h x (List.mem_append_left _ hx), argmin_filter_concat,
      List.foldl_cons, List.foldl_nil, older_eq]
    cases (entries.filter fun e => isEvictable e.2).argmin fun e => e.2.lastmod with
    | none =>
      by_cases hev : isEvictable e.2 = true
      · simp [hev, hlt]
      · simp [hev]
    | some m =>
      by_cases hev : isEvictable e.2 = true ∧ e.2.lastmod < m.2.lastmod
      · simp [hev]
      · simp only [Option.mem_def, Option.some.injEq, forall_eq', hev, if_false]

theorem oldestKey_eq (h : ∀ e ∈ s.contacts.entries, e.2.lastmod < 0xFFFFFFFF) :
    s.oldestKey = ((s.contacts.entries.filter fun e => isEvictable e.2).argmin
      fun e => e.2.lastmod).map Prod.fst := by
  rw [oldestKey, foldl_older h]
  cases (s.contacts.entries.filter fun e => isEvictable e.2).argmin fun e => e.2.lastmod <;> rfl

theorem getByKey_eq_none : s.getByKey key = none ↔ s.contacts.contains key = false := by
  rw [Dict.contains, Option.isSome_eq_false_iff, Option.isNone_iff_eq_none]
  rfl

/-- On a full store a new contact takes the place of the oldest evictable one, or is refused. -/
theorem addOrOverwrite_full (h : ∀ e ∈ s.contacts.entries, e.2.lastmod < 0xFFFFFFFF)
    (hnew : s.getByKey c.publicKey = none) (hfull : s.isFull = true) :
    (∃ key, s.Oldest isEvictable key ∧
      s.addOrOverwrite c = (true, some key, (s.remove key).put c)) ∨
      (∀ e ∈ s.contacts.entries, isEvictable e.2 = false) ∧
        s.addOrOverwrite c = (false, none, s) := by
  have hoverwrite : ¬ s.contacts.contains c.publicKey = true := by
    simp [getByKey_eq_none.mp hnew]
  have hkey := oldestKey_eq h
  cases hmin : (s.contacts.entries.filter fun e => isEvictable e.2).argmin fun e => e.2.lastmod with
  | none =>
    refine .inr ⟨argmin_filter_eq_none.mp hmin, ?_⟩
    rw [hmin] at hkey
    rw [addOrOverwrite, if_neg hoverwrite, if_pos hfull, hkey]
    rfl
  | some e =>
    refine .inl ⟨e.1, ⟨e.2, firstMin_of_argmin hmin⟩, ?_⟩
    rw [hmin] at hkey
    rw [addOrOverwrite, if_neg hoverwrite, if_pos hfull, hkey]
    rfl

def anonCount (s : ContactStore) : ℕ :=
  (s.contacts.entries.filter fun e => e.2.advType = advTypeNone).length

theorem addTransient_new (hnew : s.getByKey c.publicKey = none) :
    s.anonCount < maxAnonContacts ∧ s.addTransient c = (true, none, s.put c) ∨
      maxAnonContacts ≤ s.anonCount ∧ ∃ key, s.Oldest isTransient key ∧
        s.addTransient c = (true, some key, (s.remove key).put c) := by
  rw [addTransient, if_neg (by simp [getByKey_eq_none.mp hnew])]
  by_cases hfull : maxAnonContacts ≤ s.anonCount
  · right
    rw [if_pos (by exact hfull), oldestAnon]
    cases hmin : (s.contacts.entries.filter fun e => e.2.advType = advTypeNone).argmin
        fun e => e.2.lastmod with
    | none =>
      have hnil := List.argmin_eq_none.mp hmin
      rw [anonCount, hnil] at hfull
      exact absurd hfull (by decide)
    | some e => exact ⟨hfull, e.1, ⟨e.2, firstMin_of_argmin hmin⟩, rfl⟩
  · left
    rw [if_neg (by exact hfull)]
    exact ⟨not_le.mp hfull, rfl⟩

theorem evicted_addOrOverwrite (h : ∀ e ∈ s.contacts.entries, e.2.lastmod < 0xFFFFFFFF)
    (hkey : (s.addOrOverwrite c).2.1 = some key) :
    s.getByKey c.publicKey = none ∧ s.isFull = true ∧ s.Oldest isEvictable key := by
  cases hknown : s.contacts.contains c.publicKey with
  | true =>
    rw [addOrOverwrite, if_pos hknown] at hkey
    cases hkey
  | false =>
    have hnew := getByKey_eq_none.mpr hknown
    cases hfull : s.isFull with
    | false =>
      rw [addOrOverwrite, if_neg (by simp [hknown]), if_neg (by simp [hfull])] at hkey
      cases hkey
    | true =>
      rcases addOrOverwrite_full h hnew hfull with ⟨old, hold, heq⟩ | ⟨-, heq⟩
      · rw [heq] at hkey
        cases hkey
        exact ⟨hnew, rfl, hold⟩
      · rw [heq] at hkey
        cases hkey

theorem evicted_addTransient (hkey : (s.addTransient c).2.1 = some key) :
    s.getByKey c.publicKey = none ∧ maxAnonContacts ≤ s.anonCount ∧ s.Oldest isTransient key := by
  cases hknown : s.contacts.contains c.publicKey with
  | true =>
    rw [addTransient, if_pos hknown] at hkey
    cases hkey
  | false =>
    have hnew := getByKey_eq_none.mpr hknown
    rcases addTransient_new hnew with ⟨-, heq⟩ | ⟨hfull, old, hold, heq⟩
    · rw [heq] at hkey
      cases hkey
    · rw [heq] at hkey
      cases hkey
      exact ⟨hnew, hfull, hold⟩

end ContactStore

namespace StoreOp

def contact? : StoreOp → Option Contact
  | .add c | .update c | .addOrOverwrite c | .addTransient c => some c
  | .remove _ | .clear => none

def target? : StoreOp → Option Bytes
  | .remove key => some key
  | op => op.key?

end StoreOp

/-- The calls that change a store: the operations and a load that replaces everything. -/
inductive StoreCall where
  | single (op : StoreOp)
  | loadFrom (contacts : List Contact)

/-- The contacts that a call passes. -/
def StoreCall.contacts : StoreCall → List Contact
  | .single op => op.contact?.toList
  | .loadFrom contacts => contacts

namespace ProxyStore

/-- The loop of `load_from`, which stops when the store is full. -/
def load (s : ProxyStore) : List Contact → ProxyStore
  | [] => s
  | c :: cs => if s.isFull then s else (s.put c).load cs

def loadFrom (s : ProxyStore) (contacts : List Contact) : ProxyStore :=
  s.clear.load contacts

def call (s : ProxyStore) : StoreCall → ProxyStore
  | .single op => s.apply op
  | .loadFrom contacts => s.loadFrom contacts

/-- The store after some calls. -/
def run (maxContacts : ℕ) (calls : List StoreCall) : ProxyStore :=
  calls.foldl call (init maxContacts)

variable {s : ProxyStore} {op : StoreOp} {key : Bytes}

theorem getByKey_apply (s : ProxyStore) (op : StoreOp) (key : Bytes) :
    (s.apply op).getByKey key = (op.follow id s.contacts (op.run s.toContactStore).1
      (op.run s.toContactStore).2.1).get? key := by
  rw [← StoreOp.contacts_run, ← (s.apply_spec op).1]
  rfl

def Dated (s : ProxyStore) : Prop :=
  ∀ key c, s.getByKey key = some c → c.lastmod < 0xFFFFFFFF

theorem Dated.entries (h : s.Dated) : ∀ e ∈ s.contacts.entries, e.2.lastmod < 0xFFFFFFFF :=
  fun e he => h e.1 e.2 (Dict.get?_of_mem he)

theorem Dated.put (h : s.Dated) {c : Contact} (hc : c.lastmod < 0xFFFFFFFF) : (s.put c).Dated := by
  intro key x hx
  rw [show (s.put c).getByKey key = _ from ContactStore.getByKey_put ..] at hx
  split at hx
  · cases hx
    exact hc
  · exact h key x hx

theorem Dated.load (h : s.Dated) {cs : List Contact} (hcs : ∀ c ∈ cs, c.lastmod < 0xFFFFFFFF) :
    (s.load cs).Dated := by
  induction cs generalizing s with
  | nil => exact h
  | cons c cs ih =>
    unfold ProxyStore.load
    split
    · exact h
    · exact ih (h.put (hcs c List.mem_cons_self)) fun x hx => hcs x (List.mem_cons_of_mem c hx)

theorem Dated.apply (h : s.Dated) (hop : ∀ c ∈ op.contact?, c.lastmod < 0xFFFFFFFF) :
    (s.apply op).Dated := by
  intro key x hx
  rw [getByKey_apply, StoreOp.get?_follow] at hx
  cases op with
  | add c | update c | addOrOverwrite c | addTransient c =>
    dsimp only at hx
    split at hx
    · cases hx
      exact hop c rfl
    split at hx
    · cases hx
    · exact h key x hx
  | remove k =>
    dsimp only at hx
    split at hx
    · cases hx
    · exact h key x hx
  | clear => cases hx

theorem Dated.call (h : s.Dated) {call : StoreCall}
    (hcall : ∀ c ∈ call.contacts, c.lastmod < 0xFFFFFFFF) : (s.call call).Dated := by
  cases call with
  | single op => exact h.apply fun c hc => hcall c (Option.mem_toList.mpr hc)
  | loadFrom cs =>
    have hclear : s.clear.Dated := fun key c hc => by cases hc
    exact hclear.load hcall

theorem Dated.evicted (h : s.Dated) (htarget : op.target? ≠ some key)
    (hkey : (op.run s.toContactStore).2.1 = some key) :
    ∃ c, s.getByKey c.publicKey = none ∧
      (op = .addOrOverwrite c ∧ s.isFull = true ∧ s.Oldest ContactStore.isEvictable key ∨
        op = .addTransient c ∧ ContactStore.maxAnonContacts ≤ s.anonCount ∧
          s.Oldest ContactStore.isTransient key) := by
  cases op with
  | add c => cases hkey
  | update c => cases hkey
  | addOrOverwrite c =>
    obtain ⟨hnew, hevict⟩ := ContactStore.evicted_addOrOverwrite h.entries hkey
    exact ⟨c, hnew, Or.inl ⟨rfl, hevict⟩⟩
  | addTransient c =>
    obtain ⟨hnew, hevict⟩ := ContactStore.evicted_addTransient hkey
    exact ⟨c, hnew, Or.inr ⟨rfl, hevict⟩⟩
  | remove k => exact absurd hkey htarget
  | clear => cases hkey

end ProxyStore

end OpenHop
