/-
Who owns a connection.

A connection is idle in a bucket, held by a call, or closed; every step hands it
from one of them to another.  Two steps break this.  The pool takes back a
connection that `http.client` has closed, because `_can_keep_alive` does not ask
whether the response ended with it; and the outermost handler closes the connection
of a body that could not be parsed after the pool has taken it back.

* `turn_lent` — every other step hands a connection on;
* `ownership` — in runs without those two each connection has one owner, and calls
  act on connections of their own;
* `closed_while_idle`, `pooled_while_closed` — what either of them leads to.
-/
import SzlRouter.ConnectionPool

open Py

namespace SzlRouter

namespace Upstream

open Transition

/-! ### Buckets -/

/-- How often a connection is idle. -/
def idleCount (idle : List (Key × List ℕ)) (c : ℕ) : ℕ := (idle.flatMap Prod.snd).count c

/-- Replacing a bucket moves what it holds. -/
theorem idleCount_setBucket (idle : List (Key × List ℕ)) (key : Key) (bucket : List ℕ)
    (c : ℕ) :
    idleCount (setBucket idle key bucket) c + (bucketOf idle key).count c =
      idleCount idle c + bucket.count c := by
  induction idle with
  | nil => simp [idleCount, setBucket, bucketOf]
  | cons p idle ih =>
    obtain ⟨k, b⟩ := p
    by_cases hk : k = key
    · simp only [setBucket, bucketOf, if_pos hk, idleCount, List.flatMap_cons, List.count_append]
      omega
    · simp only [setBucket, bucketOf, if_neg hk, idleCount, List.flatMap_cons,
        List.count_append] at ih ⊢
      omega

/-- How often calls have to hold a connection, by the pool: it was opened, and is
neither idle nor closed. -/
def Pool.lent (p : Pool) (c : ℕ) : ℤ :=
  (if c < p.fresh then 1 else 0) - idleCount p.idle c - (if p.closed c then 1 else 0)

section lent

variable (p : Pool) (c : ℕ)

theorem lent_close {d : ℕ} (h : p.closed d = false) :
    (p.close d).lent c = p.lent c - if d = c then 1 else 0 := by
  rw [Pool.lent, Pool.lent, Pool.close]
  by_cases hd : d = c
  · subst hd
    simp [h]
  · simp [hd, Function.update_of_ne (Ne.symm hd)]

theorem lent_close_again {d : ℕ} (h : p.closed d = true) : (p.close d).lent c = p.lent c := by
  have hsame : Function.update p.closed d true = p.closed := by
    rw [← h, Function.update_eq_self]
  rw [Pool.lent, Pool.lent, Pool.close, hsame]

theorem lent_newConn : p.newConn.2.lent c = p.lent c + if p.newConn.1 = c then 1 else 0 := by
  rw [Pool.lent, Pool.lent, Pool.newConn]
  dsimp only
  split_ifs <;> omega

theorem lent_setBucket (key : Key) (bucket : List ℕ) :
    ({ p with idle := setBucket p.idle key bucket } : Pool).lent c =
      p.lent c + (bucketOf p.idle key).count c - bucket.count c := by
  have hcount := idleCount_setBucket p.idle key bucket c
  rw [Pool.lent, Pool.lent]
  dsimp only
  omega

theorem lent_checkout (key : Key) :
    (p.checkout key).2.2.lent c = p.lent c + if (p.checkout key).1 = c then 1 else 0 := by
  rw [Pool.checkout]
  cases hlast : (bucketOf p.idle key).getLast? with
  | none => exact lent_newConn p c
  | some d =>
    obtain ⟨rest, hrest⟩ := List.getLast?_eq_some_iff.mp hlast
    dsimp only
    rw [lent_setBucket, hrest, List.dropLast_concat, List.count_append, List.count_singleton]
    simp only [beq_iff_eq]
    split_ifs <;> push_cast <;> omega

/-- A connection that the pool does not keep is closed. -/
theorem lent_full (key : Key) (d : ℕ) :
    ({ p.close d with idle := setBucket p.idle key (bucketOf p.idle key) } : Pool).lent c =
      (p.close d).lent c := by
  have hsame := lent_setBucket (p.close d) c key (bucketOf p.idle key)
  rw [show bucketOf (p.close d).idle key = bucketOf p.idle key from rfl] at hsame
  rw [add_sub_cancel_right] at hsame
  exact hsame

theorem lent_release {maxPerHost maxHosts : ℕ} (key : Key) {d : ℕ} (h : p.closed d = false) :
    (p.release maxPerHost maxHosts key d).2.lent c = p.lent c - if d = c then 1 else 0 := by
  have hkept : ({ p with idle := setBucket p.idle key (bucketOf p.idle key ++ [d]) } : Pool).lent
      c = p.lent c - if d = c then 1 else 0 := by
    rw [lent_setBucket, List.count_append, List.count_singleton]
    simp only [beq_iff_eq]
    split_ifs <;> push_cast <;> omega
  have hclose := lent_close p c h
  rw [Pool.release]
  generalize p.lent c - (if d = c then (1 : ℤ) else 0) = rhs at hkept hclose ⊢
  split_ifs
  · exact hclose
  · exact (lent_full p c key d).trans hclose
  · exact hkept

/-- A closed connection that is released and not kept is closed again. -/
theorem lent_release_again {maxPerHost maxHosts : ℕ} (key : Key) {d : ℕ} (h : p.closed d = true)
    (hfate : p.releaseFate maxPerHost maxHosts key d ≠ .pooled) :
    (p.release maxPerHost maxHosts key d).2.lent c = p.lent c := by
  have hclose := lent_close_again p c h
  have hkept : (p.release maxPerHost maxHosts key d).1 = false :=
    Bool.eq_false_of_not_eq_true fun hkept => hfate (if_pos hkept)
  rw [Pool.release] at hkept ⊢
  by_cases hhosts : key ∉ p.idle.map Prod.fst ∧ maxHosts ≤ p.idle.length
  · rw [if_pos hhosts]
    exact hclose
  rw [if_neg hhosts] at hkept ⊢
  by_cases hroom : maxPerHost ≤ (bucketOf p.idle key).length
  · rw [if_pos hroom]
    exact (lent_full p c key d).trans hclose
  · rw [if_neg hroom] at hkept
    exact nomatch hkept

/-- A connection that is open needs no opening. -/
theorem connect_of_open {p : Pool} {d : ℕ} (h : p.closed d = false) : p.connect d = p := by
  rw [Pool.connect, ← h, Function.update_eq_self]

end lent

/-! ### Holding -/

/-- The connection of a call, and what has become of it: nothing while the call holds it. -/
def Progress.place : Progress → Option (ℕ × Option Fate)
  | .checked c _ _ | .requested c _ => some (c, none)
  | .responded c r | .refusing c r | .settled c r => some (c, fateOf r.willClose)
  | .failed c closed _ => some (c, fateOf closed)
  | .parsing c fate _ => some (c, some fate)
  | .discarding c fate _ => some (c, fate)
  | .begun | .done _ => none

/-- The connection that a call holds. -/
def Progress.held (progress : Progress) : Option ℕ :=
  progress.place.bind fun q => if q.2 = none then some q.1 else none

/-- The connection that the next step of a call sends on, reads from, releases or closes. -/
def Progress.acts : Progress → Option ℕ
  | .parsing _ _ _ => none
  | progress => progress.place.map Prod.fst

/-- A call is about to close a connection though the pool took it back. -/
def Progress.mistaken : Progress → Bool
  | .discarding _ (some .pooled) _ => true
  | _ => false

def Call.holds (c : ℕ) (k : Call) : Bool := k.progress.held = some c

/-- Calls hold what the pool has lent; what a call has let go of is closed, and no call is
about to close a connection that the pool took back. -/
structure Owned (s : Threads Pool Call) : Prop where
  lent : ∀ c, (s.locals.countP (Call.holds c) : ℤ) = s.shared.lent c
  gaveUp : ∀ k ∈ s.locals, ∀ c, k.progress.place = some (c, some .closed) →
    s.shared.closed c = true
  kept : ∀ k ∈ s.locals, k.progress.mistaken = false

theorem fateOf_ne (closed : Bool) : fateOf closed ≠ some .pooled := by
  cases closed <;> decide

theorem afterFailure_place (c : ℕ) (again closed : Bool) (e : Failure) :
    (afterFailure c again closed e).place = some (c, fateOf closed) := by
  cases again <;> cases e <;> rfl

theorem afterFailure_mistaken (c : ℕ) (again closed : Bool) (e : Failure) :
    (afterFailure c again closed e).mistaken = false := by
  cases again <;> cases closed <;> cases e <;> rfl

/-- A response that is read leaves its connection where it is. -/
theorem read_place (c : ℕ) (r : Response) :
    (if 400 ≤ r.status then Progress.refusing c r else .settled c r).place =
      some (c, fateOf r.willClose) := by
  split_ifs <;> rfl

variable {maxPerHost maxHosts : ℕ} {p : Pool} {k k' : Call} {d : ℕ}

theorem holds_of_place {fate : Option Fate} (h : k.progress.place = some (d, fate)) (c : ℕ) :
    (if k.holds c then 1 else 0 : ℤ) = if fate = none ∧ d = c then 1 else 0 := by
  cases fate <;> simp [Call.holds, Progress.held, h]

theorem holds_of_none (h : k.progress.place = none) (c : ℕ) :
    (if k.holds c then 1 else 0 : ℤ) = 0 := by
  simp [Call.holds, Progress.held, h]

/-- Closing a connection takes it from the call that had it. -/
theorem close_hands {fate : Option Fate} (h : k.progress.place = some (d, fate))
    (hfate : fate ≠ some .pooled) (hopen : fate = none → p.closed d = false)
    (hgaveUp : fate = some .closed → p.closed d = true) (c : ℕ) :
    (p.close d).lent c = p.lent c - (if k.holds c then 1 else 0 : ℤ) := by
  rw [holds_of_place h]
  cases fate with
  | none => simpa using lent_close p c (hopen rfl)
  | some fate =>
    cases fate with
    | pooled => exact absurd rfl hfate
    | closed => simpa using lent_close_again p c (hgaveUp rfl)

/-- What `http.client` closes it takes from the call that had it. -/
theorem closeIf_hands {closing : Bool} (h : k.progress.place = some (d, none))
    (h' : k'.progress.place = some (d, fateOf closing)) (hopen : p.closed d = false) (c : ℕ) :
    (p.closeIf closing d).lent c - (if k'.holds c then 1 else 0 : ℤ) =
      p.lent c - (if k.holds c then 1 else 0 : ℤ) := by
  rw [holds_of_place h, holds_of_place h']
  cases closing with
  | false => rfl
  | true => simpa [Pool.closeIf, fateOf] using lent_close p c hopen

/-- A turn that is not a mistake moves what is lent by the call's own change of hold: the pool
hands a connection over when it stops counting it, and takes one back when the call lets go of
it. -/
theorem turn_lent {p' : Pool} {e : Event} (h : Turn maxPerHost maxHosts p k e p' k')
    (hopen : ∀ c, k.progress.held = some c → p.closed c = false)
    (hgaveUp : ∀ c, k.progress.place = some (c, some .closed) → p.closed c = true)
    (hkept : k.progress.mistaken = false) (he : e ≠ .releases true .pooled) (c : ℕ) :
    p'.lent c - (if k'.holds c then 1 else 0 : ℤ) =
      p.lent c - (if k.holds c then 1 else 0 : ℤ) := by
  have hplace : ∀ {progress : Progress}, k.progress = progress →
      k.progress.place = progress.place := fun h => congrArg Progress.place h
  have hheld : ∀ {d}, k.progress.place = some (d, none) → p.closed d = false :=
    fun h => hopen _ (by simp [Progress.held, h])
  -- the connection of a call that is not waiting to parse is held or closed
  have hhands : ∀ {d fate}, k.progress.place = some (d, fate) → fate ≠ some .pooled →
      (p.close d).lent c = p.lent c - (if k.holds c then 1 else 0 : ℤ) :=
    fun h hfate => close_hands h hfate (fun hf => hheld (hf ▸ h)) (fun hf => hgaveUp _ (hf ▸ h)) c
  have hclose : ∀ {d fate}, k.progress.place = some (d, fate) → fate ≠ some .pooled →
      k'.progress.held = none → (p.close d).lent c - (if k'.holds c then 1 else 0 : ℤ) =
        p.lent c - (if k.holds c then 1 else 0 : ℤ) := by
    intro d fate h hfate hnone
    rw [hhands h hfate]
    simp [Call.holds, hnone]
  cases h with
  | checksOut hp =>
    rw [lent_checkout, holds_of_place rfl, holds_of_none (hplace hp)]
    simp
  | requests hp =>
    rw [connect_of_open (hheld (hplace hp)), holds_of_place rfl, holds_of_place (hplace hp)]
  | requestFails e connected hp =>
    rw [connect_of_open (hheld (hplace hp)), ite_self,
      holds_of_place (afterFailure_place _ _ _ e), holds_of_place (hplace hp)]
    rfl
  | receives _ hp => exact closeIf_hands (hplace hp) rfl (hheld (hplace hp)) c
  | receiveFails e _ hp =>
    exact closeIf_hands (hplace hp) (afterFailure_place _ _ _ e) (hheld (hplace hp)) c
  | reads hp => rw [holds_of_place (read_place _ _), holds_of_place (hplace hp)]
  | readFails _ hp => rw [holds_of_place rfl, holds_of_place (hplace hp)]
  | gives hp _ => exact hclose (hplace hp) (fateOf_ne _) rfl
  | refuses hp => exact hclose (hplace hp) (fateOf_ne _) rfl
  | closes hp _ => exact hclose (hplace hp) (fateOf_ne _) rfl
  | @resends d closed e hp _ =>
    have hfree : (p.close d).lent c = p.lent c - (if k.holds c then 1 else 0 : ℤ) :=
      hhands (hplace hp) (fateOf_ne _)
    rw [holds_of_place rfl, lent_newConn, hfree]
    simp
  | @releases d r hp _ =>
    cases hclosed : r.willClose with
    | false =>
      have hd : k.progress.place = some (d, none) :=
          (hplace hp).trans (by simp [Progress.place, fateOf, hclosed])
      rw [lent_release p c _ (hheld hd), holds_of_place rfl, holds_of_place hd]
      simp
    | true =>
      have hd : k.progress.place = some (d, some .closed) :=
        (hplace hp).trans (by simp [Progress.place, fateOf, hclosed])
      have hfate : p.releaseFate maxPerHost maxHosts k.key d ≠ .pooled :=
        fun hfate => he (by rw [hclosed, hfate])
      rw [lent_release_again p c _ (hgaveUp d hd) hfate, holds_of_place rfl, holds_of_place hd]
      simp
  | parses v _ hp _ => rw [holds_of_none rfl, holds_of_place (hplace hp)]; simp
  | parseFails _ _ _ hp _ => rw [holds_of_place rfl, holds_of_place (hplace hp)]
  | @discards d fate e hp =>
    refine hclose (hplace hp) ?_ rfl
    rintro rfl
    rw [hp] at hkept
    exact nomatch hkept

/-! ### Closing -/

theorem close_closed (p : Pool) (d : ℕ) : (p.close d).closed d = true := by
  simp [Pool.close]

theorem close_mono {p : Pool} {c : ℕ} (h : p.closed c = true) (d : ℕ) :
    (p.close d).closed c = true := by
  by_cases hd : c = d
  · rw [hd, close_closed]
  · simpa [Pool.close, Function.update_of_ne hd] using h

theorem closeIf_mono {p : Pool} {c : ℕ} (h : p.closed c = true) (closing : Bool) (d : ℕ) :
    (p.closeIf closing d).closed c = true := by
  cases closing with
  | false => exact h
  | true => exact close_mono h d

theorem checkout_closed (p : Pool) (key : Key) : (p.checkout key).2.2.closed = p.closed := by
  rw [Pool.checkout]
  cases (bucketOf p.idle key).getLast? <;> rfl

/-- `_release` closes what the pool does not keep. -/
theorem release_closed (p : Pool) (key : Key) (d : ℕ) :
    (p.release maxPerHost maxHosts key d).2.closed =
      if p.releaseFate maxPerHost maxHosts key d = .pooled then p.closed
      else (p.close d).closed := by
  rw [Pool.releaseFate, Pool.release]
  split_ifs <;> simp_all

/-- What is closed stays closed, while calls send only on what is open. -/
theorem turn_closed {p' : Pool} {e : Event} (h : Turn maxPerHost maxHosts p k e p' k')
    (hopen : ∀ c, k.progress.held = some c → p.closed c = false) {c : ℕ}
    (hc : p.closed c = true) : p'.closed c = true := by
  have hheld : ∀ {d new again}, k.progress = .checked d new again → p.connect d = p :=
    fun h => connect_of_open (hopen _ (by rw [h]; rfl))
  cases h with
  | checksOut _ => rwa [checkout_closed]
  | requests hp => rwa [hheld hp]
  | requestFails _ _ hp => rwa [hheld hp, ite_self]
  | receives => exact closeIf_mono hc _ _
  | receiveFails => exact closeIf_mono hc _ _
  | gives | refuses | closes | discards => exact close_mono hc _
  | resends => exact close_mono hc _
  | releases =>
    rw [release_closed]
    split_ifs
    · exact hc
    · exact close_mono hc _
  | _ => exact hc

/-- A call lets go only of what is closed. -/
theorem turn_gaveUp {p' : Pool} {e : Event} (h : Turn maxPerHost maxHosts p k e p' k')
    (hgaveUp : ∀ c, k.progress.place = some (c, some .closed) → p.closed c = true) {c : ℕ}
    (hc : k'.progress.place = some (c, some .closed)) : p'.closed c = true := by
  -- a connection that is given up is closed on the spot
  have hclosing : ∀ {d closing}, some (d, fateOf closing) = some (c, some .closed) →
      (p.closeIf closing d).closed c = true := by
    intro d closing h
    obtain ⟨rfl, hfate⟩ := Prod.mk.inj (Option.some.inj h)
    cases closing with
    | false => exact nomatch hfate
    | true => exact close_closed p d
  cases h with
  | requestFails e _ _ => exact nomatch (afterFailure_place _ _ _ e).symm.trans hc
  -- a response that closes does so when it is received, and is read to its end
  | receives _ _ => exact hclosing hc
  | receiveFails e _ _ => exact hclosing ((afterFailure_place _ _ _ e).symm.trans hc)
  | reads hp =>
    exact hgaveUp c ((congrArg Progress.place hp).trans ((read_place _ _).symm.trans hc))
  | readFails _ hp => exact hgaveUp c ((congrArg Progress.place hp).trans hc)
  | parseFails _ _ _ hp _ => exact hgaveUp c ((congrArg Progress.place hp).trans hc)
  | gives _ _ =>
    obtain ⟨rfl, _⟩ := Prod.mk.inj (Option.some.inj hc)
    exact close_closed p _
  | closes _ _ =>
    obtain ⟨rfl, _⟩ := Prod.mk.inj (Option.some.inj hc)
    exact close_closed p _
  | releases _ _ =>
    obtain ⟨rfl, hfate⟩ := Prod.mk.inj (Option.some.inj hc)
    rw [release_closed, Option.some.inj hfate]
    exact close_closed p _
  -- no other turn leads to a place that was given up
  | _ => exact nomatch hc

/-- Only a body that cannot be parsed makes a call close what the pool took back. -/
theorem turn_kept {p' : Pool} {e : Event} (h : Turn maxPerHost maxHosts p k e p' k')
    (he : e ≠ .parseFails .pooled) : k'.progress.mistaken = false := by
  cases h with
  | requestFails e _ _ => exact afterFailure_mistaken _ _ _ e
  | receiveFails e _ _ => exact afterFailure_mistaken _ _ _ e
  | @reads d r _ =>
    show (ite _ _ _ : Progress).mistaken = false
    split_ifs <;> rfl
  | @readFails d r _ _ =>
    show (Progress.discarding d (fateOf r.willClose) _).mistaken = false
    cases r.willClose <;> rfl
  | @parseFails d fate r kind message room hp _ =>
    cases fate with
    | pooled => exact absurd rfl he
    | closed => rfl
  | _ => rfl

/-! ### Ownership -/

/-- What a call holds is open. -/
theorem Owned.open {s : Threads Pool Call} (h : Owned s) {k : Call} (hk : k ∈ s.locals) {c : ℕ}
    (hc : k.progress.held = some c) : s.shared.closed c = false := by
  have hpos : 0 < s.locals.countP (Call.holds c) :=
    List.countP_pos_iff.mpr ⟨k, hk, by simp [Call.holds, hc]⟩
  have hlent := h.lent c
  rw [Pool.lent] at hlent
  by_contra hclosed
  rw [if_pos (Bool.eq_true_of_not_eq_false hclosed)] at hlent
  split_ifs at hlent <;> omega

/-- A call acts on what it holds, or on what is closed. -/
theorem Owned.acts {s : Threads Pool Call} (h : Owned s) {k : Call} (hk : k ∈ s.locals) {c : ℕ}
    (hc : k.progress.acts = some c) : k.progress.held = some c ∨ s.shared.closed c = true := by
  have hkept := h.kept k hk
  have hgaveUp := h.gaveUp k hk c
  -- a turn that acts on a connection has it, or closed it before
  have hclosing : ∀ {d closing}, some (d, fateOf closing) = k.progress.place → d = c →
      k.progress.held = some c ∨ s.shared.closed c = true := by
    rintro d closing hplace rfl
    cases closing with
    | false => exact Or.inl (by rw [Progress.held, ← hplace]; rfl)
    | true => exact Or.inr (hgaveUp hplace.symm)
  cases hp : k.progress with
  | discarding d fate e =>
    rw [hp] at hc hkept hgaveUp
    obtain rfl := Option.some.inj hc
    cases fate with
    | none => exact Or.inl rfl
    | some fate =>
      cases fate with
      | pooled => exact nomatch hkept
      | closed => exact Or.inr (hgaveUp rfl)
  | responded d r | refusing d r | settled d r | failed d closed e =>
    rw [hp] at hc hclosing
    exact hclosing rfl (Option.some.inj hc)
  | checked d new again | requested d again =>
    rw [hp] at hc
    exact Or.inl hc
  | begun | parsing d fate r | done reply =>
    rw [hp] at hc
    exact nomatch hc

/-- A step of the system that is not a mistake keeps ownership. -/
theorem step_owned {s s' : Threads Pool Call} {l : Option Event}
    (hparse : l ≠ some (.parseFails .pooled)) (hrelease : l ≠ some (.releases true .pooled))
    (h : System maxPerHost maxHosts s l s') (hs : Owned s) : Owned s' := by
  cases h with
  | spawn hstart =>
    obtain ⟨_, hbegun⟩ := hstart
    constructor
    · intro c
      rw [← hs.lent c]
      simp [List.countP_append, Call.holds, hbegun, Progress.held, Progress.place]
    · refine List.forall_mem_append.mpr ⟨hs.gaveUp, ?_⟩
      intro k hk c hc
      rw [List.mem_singleton.mp hk, hbegun] at hc
      exact nomatch hc
    · refine List.forall_mem_append.mpr ⟨hs.kept, ?_⟩
      intro k hk
      rw [List.mem_singleton.mp hk, hbegun]
      rfl
  | env heq => exact heq ▸ hs
  | @turn p p' e before after k k' hturn =>
    have hmem : k ∈ before ++ k :: after := by simp
    have hopen : ∀ c, k.progress.held = some c → p.closed c = false :=
      fun c hc => hs.open hmem hc
    constructor
    · intro c
      have hlent := hs.lent c
      have hmoves := turn_lent hturn hopen (hs.gaveUp k hmem) (hs.kept k hmem)
        (fun he => hrelease (congrArg some he)) c
      dsimp only at hlent ⊢
      rw [List.countP_append, List.countP_cons] at hlent ⊢
      split_ifs at hmoves hlent ⊢ <;> omega
    · -- the other calls let go of what stays closed
      have hothers : ∀ t ∈ before ++ k :: after, ∀ c,
          t.progress.place = some (c, some .closed) → p'.closed c = true :=
        fun t ht c hc => turn_closed hturn hopen (hs.gaveUp t ht c hc)
      obtain ⟨hbefore, hrest⟩ := List.forall_mem_append.mp hothers
      refine List.forall_mem_append.mpr ⟨hbefore, List.forall_mem_cons.mpr ⟨?_, ?_⟩⟩
      · exact fun c hc => turn_gaveUp hturn (hs.gaveUp k hmem) hc
      · exact (List.forall_mem_cons.mp hrest).2
    · obtain ⟨hbefore, hrest⟩ := List.forall_mem_append.mp hs.kept
      exact List.forall_mem_append.mpr ⟨hbefore, List.forall_mem_cons.mpr
        ⟨turn_kept hturn fun he => hparse (congrArg some he), (List.forall_mem_cons.mp hrest).2⟩⟩

/-- **Connection ownership.** In every run of concurrent calls on a new pool in which the
pool takes back no connection that ended with its response, and no body that cannot be
parsed comes over a connection the pool has just taken back, each connection that was
opened is idle in one bucket, held by one call, or closed, and a call acts on a connection
that it holds, or once more on one that is closed. -/
theorem ownership {s : Threads Pool Call} {events : List (Option Event)}
    (h : Exec (System maxPerHost maxHosts) ⟨⟨[], 0, fun _ => false⟩, []⟩ events s)
    (hparse : some (.parseFails .pooled) ∉ events)
    (hrelease : some (.releases true .pooled) ∉ events) :
    (∀ c, idleCount s.shared.idle c + s.locals.countP (Call.holds c) +
      (if s.shared.closed c then 1 else 0) = if c < s.shared.fresh then 1 else 0) ∧
    ∀ k ∈ s.locals, ∀ c, k.progress.acts = some c →
      k.progress.held = some c ∨ s.shared.closed c = true := by
  -- the invariant holds of the empty pool and is kept by each step
  have howned : Owned s := by
    have hevents : ∀ l ∈ events,
        l ≠ some (.parseFails .pooled) ∧ l ≠ some (.releases true .pooled) :=
      fun l hl => ⟨fun he => hparse (he ▸ hl), fun he => hrelease (he ▸ hl)⟩
    refine h.invariant (fun u l v hl hstep hu => ?_) hevents ?_
    · exact step_owned hl.1 hl.2 hstep hu
    constructor
    · intro c
      simp [Pool.lent, idleCount]
    · simp
    · simp
  constructor
  · intro c
    have hlent := howned.lent c
    rw [Pool.lent] at hlent
    split_ifs at hlent ⊢ <;> omega
  · exact fun k hk c hc => howned.acts hk hc

section kept

/-- The call of the runs below, and its response, which has no body.  Only the one that
declares its length leaves the connection open. -/
def emptyCall (wire : List Wire) (progress : Progress) : Call :=
  ⟨(lit "https", lit "box.example", 443), false, wire, progress⟩

def emptyResponse (willClose : Bool) : Response :=
  ⟨200, lit "OK", 11, if willClose then [] else [(lit "Content-Length", lit "0")], [], willClose⟩

/-- The pool once it has taken the connection back. -/
def keptPool : Pool := ⟨[((lit "https", lit "box.example", 443), [0])], 1, fun _ => false⟩

theorem kept_run (willClose : Bool) : Exec (System 4 16) ⟨⟨[], 0, fun _ => false⟩, []⟩
    [none, some .checksOut, some .requests, some .receives, some .reads,
      some (.releases willClose .pooled)]
    ⟨(keptPool.connect 0).closeIf willClose 0, [emptyCall
      [.send 0 true, .response (emptyResponse willClose)]
      (.parsing 0 .pooled (emptyResponse willClose))]⟩ := by
  refine .cons (Interleave.first (t := emptyCall [] .begun) ⟨rfl, rfl⟩) ?_
  refine .cons (Interleave.alone (.checksOut rfl)) (.cons (Interleave.alone (.requests rfl)) ?_)
  refine .cons (Interleave.alone (.receives (emptyResponse willClose) rfl)) ?_
  refine .cons (Interleave.alone (.reads rfl)) ?_
  cases willClose with
  | false =>
    exact .cons (Interleave.alone (.releases (r := emptyResponse false) rfl (by decide))) (.nil _)
  | true =>
    exact .cons (Interleave.alone (.releases (r := emptyResponse true) rfl (by decide))) (.nil _)

/-- The handler closes the connection that the pool keeps: the body could not be parsed, and the
connection was given back before it was looked at. -/
theorem closed_while_idle : ¬∀ (s : Threads Pool Call) (events : List (Option Event)),
    Exec (System 4 16) ⟨⟨[], 0, fun _ => false⟩, []⟩ events s →
    ∀ c, idleCount s.shared.idle c + s.locals.countP (Call.holds c) +
      (if s.shared.closed c then 1 else 0) = if c < s.shared.fresh then 1 else 0 := by
  intro h
  have hrun : Exec (System 4 16) ⟨⟨[], 0, fun _ => false⟩, []⟩
      ([none, some .checksOut, some .requests, some .receives, some .reads,
        some (.releases false .pooled)] ++ [some (.parseFails .pooled), some .discards])
      ⟨(keptPool.connect 0).close 0, [emptyCall
        [.send 0 true, .response (emptyResponse false)]
        (.done (.failed (.other (lit "JSONDecodeError") [])))]⟩ := by
    refine (kept_run false).append ?_
    refine .cons (Interleave.alone (.parseFails (lit "JSONDecodeError") [] 900 rfl (by decide))) ?_
    exact .cons (Interleave.alone (.discards rfl)) (.nil _)
  have hone := h _ _ hrun 0
  revert hone
  decide

/-- The pool takes back a connection that ended with its response: `getresponse` has closed it,
and the release asks only for the headers. -/
theorem pooled_while_closed : ¬∀ (s : Threads Pool Call) (events : List (Option Event)),
    Exec (System 4 16) ⟨⟨[], 0, fun _ => false⟩, []⟩ events s →
    some (.parseFails .pooled) ∉ events →
    ∀ c, idleCount s.shared.idle c + s.locals.countP (Call.holds c) +
      (if s.shared.closed c then 1 else 0) = if c < s.shared.fresh then 1 else 0 := by
  intro h
  have hone := h _ _ (kept_run true) (by decide) 0
  revert hone
  decide

/-- The connection of a call whose body is yet to be parsed is idle. -/
theorem ownership_kept : ∃ (s : Threads Pool Call) (events : List (Option Event)),
    Exec (System 4 16) ⟨⟨[], 0, fun _ => false⟩, []⟩ events s ∧
      idleCount s.shared.idle 0 = 1 ∧ s.locals.countP (Call.holds 0) = 0 := by
  have hone := (ownership (kept_run false) (by decide) (by decide)).1 0
  refine ⟨_, _, kept_run false, by decide, ?_⟩
  revert hone
  decide

end kept

end Upstream

end SzlRouter
