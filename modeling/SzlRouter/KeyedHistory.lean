/-
The history of a keyed store.

A store is filled and emptied key by key.  What it must hold follows from the list
of its changes alone: under a key there is the value of the last `put` of the key,
unless the key was dropped since.

* `last_eq_some_iff` — that value, in terms of the list;
* `Tracks.put`, `Tracks.drop` — a dictionary that makes the changes keeps holding
  what its history says.
-/
import SzlRouter.Json

namespace KeyedHistory

/-- A change of a store. -/
inductive Change (κ α : Type)
  | put (key : κ) (value : α)
  | drop (key : κ)

section

variable {κ α : Type} [DecidableEq κ]

def Change.key : Change κ α → κ
  | .put key _ => key
  | .drop key => key

/-- What a change leaves under its own key. -/
def Change.value? : Change κ α → Option α
  | .put _ value => some value
  | .drop _ => none

/-- What a store holds under a key after its changes. -/
def last (changes : List (Change κ α)) (key : κ) : Option α :=
  (changes.reverse.find? (·.key = key)).bind Change.value?

theorem last_nil (key : κ) : last ([] : List (Change κ α)) key = none := rfl

/-- A change decides what is under its key. -/
theorem last_concat_self {changes : List (Change κ α)} {c : Change κ α} {key : κ}
    (h : c.key = key) : last (changes ++ [c]) key = c.value? := by
  rw [last, List.reverse_append, List.reverse_singleton, List.singleton_append, List.find?_cons,
    decide_eq_true h]
  rfl

/-- A change leaves the other keys alone. -/
theorem last_concat_of_ne {changes : List (Change κ α)} {c : Change κ α} {key : κ}
    (h : c.key ≠ key) : last (changes ++ [c]) key = last changes key := by
  rw [last, List.reverse_append, List.reverse_singleton, List.singleton_append, List.find?_cons,
    decide_eq_false h]
  rfl

/-- Putting one value under several keys. -/
theorem last_append_puts (changes : List (Change κ α)) (keys : List κ) (value : α) (key : κ) :
    last (changes ++ keys.map fun k => .put k value) key =
      if key ∈ keys then some value else last changes key := by
  induction keys using List.reverseRecOn with
  | nil => simp
  | append_singleton keys k ih =>
    rw [List.map_append, ← List.append_assoc]
    by_cases hkey : k = key
    · subst hkey
      rw [if_pos (by simp)]
      exact last_concat_self rfl
    · rw [List.map_singleton, last_concat_of_ne (show Change.key (.put k value) ≠ key from hkey),
        ih]
      simp [Ne.symm hkey]

/-- A store holds what was put last, if the key was not changed since. The put stands somewhere
in the history, and no later change is under its key. -/
theorem last_eq_some_iff {changes : List (Change κ α)} {key : κ} {value : α} :
    last changes key = some value ↔
      ∃ past later, changes = past ++ .put key value :: later ∧ ∀ c ∈ later, c.key ≠ key := by
  -- by induction from the end, where the last change stands
  induction changes using List.reverseRecOn with
  | nil => simp [last_nil]
  | append_singleton changes c ih =>
    constructor
    · intro h
      by_cases hkey : c.key = key
      · rw [last_concat_self hkey] at h
        cases c with
        | put k v =>
          obtain rfl : k = key := hkey
          obtain rfl := Option.some.inj h
          exact ⟨changes, [], rfl, by simp⟩
        | drop k => cases h
      · rw [last_concat_of_ne hkey] at h
        obtain ⟨past, later, rfl, hlater⟩ := ih.mp h
        refine ⟨past, later ++ [c], by simp, ?_⟩
        intro d hd
        rcases List.mem_append.mp hd with hd | hd
        · exact hlater d hd
        · rw [List.mem_singleton.mp hd]
          exact hkey
    -- either the put is the last change, or the last change is under another key
    · rintro ⟨past, later, heq, hlater⟩
      rcases List.eq_nil_or_concat later with rfl | ⟨later, d, rfl⟩
      · obtain ⟨rfl, hc⟩ := List.append_inj' heq rfl
        rw [List.singleton_inj.mp hc]
        exact last_concat_self rfl
      · rw [List.concat_eq_append, ← List.cons_append, ← List.append_assoc] at heq
        obtain ⟨rfl, hc⟩ := List.append_inj' heq rfl
        obtain rfl := List.singleton_inj.mp hc
        rw [last_concat_of_ne (hlater _ (by simp))]
        exact ih.mpr ⟨past, later, rfl, fun e he => hlater e (by simp [he])⟩

end

/-! ### Dictionaries -/

section

open Py

variable {α β : Type} {R : Str → β → α → Prop} {d : List (Str × β)}
  {changes : List (Change Str α)}

/-- A dictionary holds what its history says, up to a relation between what is stored
and what was put. -/
def Tracks (R : Str → β → α → Prop) (d : List (Str × β)) (changes : List (Change Str α)) : Prop :=
  ∀ key, Option.Rel (R key) (Dict.get d key) (last changes key)

theorem Tracks.nil : Tracks R [] [] := fun _ => .none

/-- What is stored was put. -/
theorem Tracks.get (h : Tracks R d changes) {key : Str} {b : β} (hget : Dict.get d key = some b) :
    ∃ a, last changes key = some a ∧ R key b a := by
  have hrel := h key
  rw [hget] at hrel
  generalize last changes key = o at hrel
  cases hrel with
  | some hR => exact ⟨_, rfl, hR⟩

theorem Tracks.mono {R' : Str → β → α → Prop} (h : Tracks R d changes)
    (hR : ∀ key b a, R key b a → R' key b a) : Tracks R' d changes := by
  intro key
  have hrel := h key
  generalize Dict.get d key = x at hrel
  generalize last changes key = y at hrel
  cases hrel with
  | some hb => exact .some (hR key _ _ hb)
  | none => exact .none

theorem Tracks.put (h : Tracks R d changes) {key : Str} {b : β} {a : α} (hR : R key b a) :
    Tracks R (Dict.set d key b) (changes ++ [.put key a]) := by
  intro k
  by_cases hk : k = key
  · rw [hk, Dict.get_set_self, last_concat_self (show (Change.put key a).key = key from rfl)]
    exact .some hR
  · rw [Dict.get_set_of_ne hk, last_concat_of_ne (Ne.symm hk)]
    exact h k

theorem Tracks.drop (h : Tracks R d changes) (key : Str) :
    Tracks R (Dict.without d [key]) (changes ++ [.drop key]) := by
  intro k
  rw [Dict.get_without]
  by_cases hk : k = key
  · rw [if_pos (List.mem_singleton.mpr hk), hk,
      last_concat_self (show (Change.drop key : Change Str α).key = key from rfl)]
    exact .none
  · rw [if_neg fun hmem => hk (List.mem_singleton.mp hmem), last_concat_of_ne (Ne.symm hk)]
    exact h k

end

end KeyedHistory
