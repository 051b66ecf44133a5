import Mathlib.Data.List.ReduceOption
import OpenHop.Protocol.GroupPacket

/-! # Channel slots

A companion keeps its channels in numbered slots, some of them empty. Names may repeat; a
lookup by name finds the first slot that has it, and a list of all channels has the same
first channel of that name.
-/

namespace OpenHop

structure ChannelStore where
  maxChannels : ℕ
  channels : List (Option ChannelConfig)
  length_channels : channels.length = maxChannels

namespace ChannelStore

def empty (maxChannels : ℕ := 40) : ChannelStore :=
  ⟨maxChannels, List.replicate maxChannels none, List.length_replicate⟩

/-- The channels in slot order, as the group text handler and the builder get them. -/
def getChannels (s : ChannelStore) : List ChannelConfig := s.channels.reduceOption

def get (s : ChannelStore) (idx : ℕ) : Option ChannelConfig :=
  if idx < s.maxChannels then s.channels[idx]?.join else none

def set (s : ChannelStore) (idx : ℕ) (channel : ChannelConfig) : Bool × ChannelStore :=
  if idx < s.maxChannels then
    (true, ⟨s.maxChannels, s.channels.set idx (some channel), by simp [s.length_channels]⟩)
  else (false, s)

def remove (s : ChannelStore) (idx : ℕ) : Bool × ChannelStore :=
  if idx < s.maxChannels ∧ (s.get idx).isSome then
    (true, ⟨s.maxChannels, s.channels.set idx none, by simp [s.length_channels]⟩)
  else (false, s)

def findByName (s : ChannelStore) (name : List Char) : Option ℕ :=
  s.channels.findIdx? fun channel => channel.any fun ch => ch.name = name

theorem get_eq (s : ChannelStore) (idx : ℕ) : s.get idx = s.channels[idx]?.join := by
  unfold get
  split
  · rfl
  · rename_i h
    rw [List.getElem?_eq_none (by rw [s.length_channels]; omega)]
    rfl

theorem find?_reduceOption {α : Type} (p : α → Bool) (l : List (Option α)) :
    l.reduceOption.find? p = (l.findIdx? fun o => o.any p).bind fun i => l[i]?.join := by
  induction l with
  | nil => rfl
  | cons o l ih =>
    cases o with
    | none =>
      rw [List.reduceOption_cons_of_none, ih, List.findIdx?_cons]
      cases List.findIdx? (fun o => o.any p) l <;> simp
    | some a =>
      rw [List.reduceOption_cons_of_some, List.findIdx?_cons]
      cases h : p a with
      | true => simp [h]
      | false =>
        rw [List.find?_cons_of_neg (by simp [h]), ih]
        cases List.findIdx? (fun o => o.any p) l <;> simp [h]

theorem find?_getChannels (s : ChannelStore) (name : List Char) :
    (s.getChannels.find? fun ch => ch.name = name) = (s.findByName name).bind s.get := by
  simp only [getChannels, find?_reduceOption, findByName, get_eq]

theorem mem_getChannels {s : ChannelStore} {channel : ChannelConfig} :
    channel ∈ s.getChannels ↔ ∃ idx, s.get idx = some channel := by
  rw [getChannels, List.reduceOption_mem_iff, List.mem_iff_getElem?]
  simp only [get_eq, Option.join_eq_some_iff]

theorem exists_findByName {s : ChannelStore} {idx : ℕ} {channel : ChannelConfig}
    (h : s.get idx = some channel) :
    ∃ first other, s.findByName channel.name = some first ∧ first ≤ idx ∧
      s.get first = some other ∧ other.name = channel.name := by
  have hslot : s.channels[idx]? = some (some channel) := by
    rw [get_eq, Option.join_eq_some_iff] at h
    exact h
  obtain ⟨hlt, hget⟩ := List.getElem?_eq_some_iff.mp hslot
  cases hfind : s.findByName channel.name with
  | none =>
    have hall := List.findIdx?_eq_none_iff.mp hfind (some channel) (List.mem_of_getElem? hslot)
    simp at hall
  | some first =>
    obtain ⟨hfirst, hp, hbefore⟩ := List.findIdx?_eq_some_iff_getElem.mp hfind
    cases hother : s.channels[first] with
    | none =>
      rw [hother] at hp
      cases hp
    | some other =>
      refine ⟨first, other, rfl, ?_, ?_, ?_⟩
      · by_contra hlt'
        have := hbefore idx (by omega)
        rw [hget] at this
        simp at this
      · rw [get_eq, List.getElem?_eq_getElem hfirst, hother]
        rfl
      · rw [hother] at hp
        simpa using hp

end ChannelStore

/-- `set_channel` and `remove_channel`. -/
inductive ChannelOp where
  | setChannel (idx : ℕ) (name : List Char) (secret : Bytes)
  | removeChannel (idx : ℕ)

namespace ChannelStore

def setChannel (s : ChannelStore) (idx : ℕ) (name : List Char) (secret : Bytes) :
    Bool × ChannelStore :=
  let secret :=
    if secret.length < 32 then secret ++ List.replicate (32 - secret.length) 0
    else if secret.length > 32 then secret.take 32
    else secret
  s.set idx ⟨name.take 32, secret⟩

def removeChannel (s : ChannelStore) (idx : ℕ) : Bool × ChannelStore := s.remove idx

def apply (s : ChannelStore) : ChannelOp → ChannelStore
  | .setChannel idx name secret => (s.setChannel idx name secret).2
  | .removeChannel idx => (s.removeChannel idx).2

/-- The tables a companion can come to hold. -/
def Reachable (s : ChannelStore) : Prop :=
  ∃ maxChannels, ∃ ops : List ChannelOp, s = ops.foldl apply (empty maxChannels)

def StoredSecrets (s : ChannelStore) : Prop :=
  ∀ idx channel, s.get idx = some channel → channel.secret.length = 32

theorem StoredSecrets.set {s : ChannelStore} (hs : s.StoredSecrets) {idx : ℕ}
    {channel : Option ChannelConfig} (hch : ∀ ch, channel = some ch → ch.secret.length = 32)
    (hlen : (s.channels.set idx channel).length = s.maxChannels) :
    StoredSecrets ⟨s.maxChannels, s.channels.set idx channel, hlen⟩ := by
  intro j ch hj
  rw [get_eq, List.getElem?_set] at hj
  split at hj
  · split at hj
    · exact hch ch (by simpa using hj)
    · cases hj
  · exact hs j ch (by rw [get_eq]; exact hj)

theorem StoredSecrets.apply {s : ChannelStore} (hs : s.StoredSecrets) (op : ChannelOp) :
    (s.apply op).StoredSecrets := by
  cases op with
  | setChannel idx name secret =>
    simp only [ChannelStore.apply, setChannel, ChannelStore.set]
    split
    · refine hs.set ?_ _
      rintro ch ⟨⟩
      dsimp only
      split
      · rw [List.length_append, List.length_replicate]
        omega
      split
      · rw [List.length_take]
        omega
      · omega
    · exact hs
  | removeChannel idx =>
    simp only [ChannelStore.apply, removeChannel, remove]
    split
    · exact hs.set (fun ch h => by cases h) _
    · exact hs

theorem Reachable.storedSecrets {s : ChannelStore} (h : s.Reachable) : s.StoredSecrets := by
  obtain ⟨maxChannels, ops, rfl⟩ := h
  have hempty : (empty maxChannels).StoredSecrets := by
    intro idx channel hget
    rw [get_eq, Option.join_eq_some_iff] at hget
    cases List.eq_of_mem_replicate (List.mem_of_getElem? hget)
  generalize empty maxChannels = s at hempty
  induction ops generalizing s with
  | nil => exact hempty
  | cons op ops ih => exact ih _ (hempty.apply op)

end ChannelStore

end OpenHop
