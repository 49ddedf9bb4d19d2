/-
The key that receipts are signed with (`szl_router/receipts.py`).

It is looked for once, by whichever request needs it first: in the environment, in a file,
or as a pair generated for the session.  An exception on the way does not make a later
request look again.

* `initSigning_ensures` — the pair after a request, at either exit;
* `signing_stable` — one key signs every receipt of a process, and the key that is published
  is its public half, whatever becomes of the environment.
-/
import SzlRouter.Dispatch
import SzlRouter.Procedure
import SzlRouter.Transition

namespace SzlRouter

namespace Receipts

open Py Procedure Transition

/-- How `verify_receipt` is given a public key. -/
inductive PublicKey
  | json (v : Json)
  | pem (b : Bytes)

/-- `szl_receipt`, and the key functions of the library below it.  A call that is not the same
every time is given its number. -/
structure Library where
  generateKeypair : ℕ → Except Failure (Bytes × Bytes)
  /-- `_derive_public_pem`; `none` is any exception. -/
  derivePublicPem : Bytes → Option Bytes
  /-- `sign_receipt(Receipt(kind=kind, body=body), key, organ=organ)`. -/
  signReceipt : (kind : Str) → (body : Json) → (key : Option Bytes) → (organ : Str) → ℕ →
    Except Failure Dict
  verifyReceipt : Json → PublicKey → Except Failure (Bool × Str)

def ORGAN : Str := lit "szl-router"
def RECEIPT_KIND : Str := lit "inference.route"

/-- `_KeyState`. -/
structure KeyState where
  privatePem : Option Bytes
  publicPem : Option Bytes
  source : Str
  ephemeral : Bool
  libraryAvailable : Bool

/-- `_STATE` and `_INITIALIZED`, with the number of calls of the library so far. -/
structure Signing where
  key : KeyState
  initialized : Bool
  calls : ℕ

def Signing.start : Signing := ⟨⟨none, none, lit "uninitialized", false, false⟩, false, 0⟩

/-- What a key is looked for in. -/
structure Host where
  env : Env
  /-- `open(path, "rb").read()`. -/
  readBytes : Str → Option Bytes

/-- A key that `if key:` takes for one. -/
def KeyState.armed (k : KeyState) : Option Bytes := k.privatePem.filter (· ≠ [])

abbrev Keying := EStateM Failure Signing

def setKey (f : KeyState → KeyState) : Keying Unit := modify fun s => { s with key := f s.key }

/-- The number of the next call of the library. -/
def call : Keying ℕ := do
  let s ← get
  set { s with calls := s.calls + 1 }
  return s.calls

/-- `_env_truthy`. -/
def envTruthy (env : Env) (name : Str) (default : Bool) : Bool :=
  let raw := Str.strip (env.getD name)
  if raw = [] then default
  else Str.lower raw ∉ [lit "0", lit "false", lit "no", lit "off"]

/-- The private key of the configuration. -/
def readConfigured (host : Host) : Keying Unit :=
  let pem := Str.strip (host.env.getD (lit "SZL_RECEIPT_KEY_PEM"))
  if pem ≠ [] then
    match utf8 pem with
    | none => throw (.other (lit "UnicodeEncodeError") (lit "surrogates not allowed"))
    | some raw =>
      setKey fun k => { k with privatePem := some raw, source := lit "env:SZL_RECEIPT_KEY_PEM" }
  else
    let path := Str.strip (host.env.getD (lit "SZL_RECEIPT_KEY_FILE"))
    if path ≠ [] then
      match host.readBytes path with
      | none => return ()
      | some raw => setKey fun k => { k with privatePem := some raw, source := lit "file:" ++ path }
    else return ()

/-- The public half of the configured key; a key that has none is discarded. -/
def deriveConfigured (sr : Library) : Keying Unit := do
  match (← get).key.armed with
  | none => return ()
  | some priv =>
    match sr.derivePublicPem priv with
    | none => setKey fun k => { k with privatePem := none }
    | some pub => setKey fun k => { k with publicPem := some pub }

theorem byte_lt (b : Byte) : b.val < 0x110000 := b.isLt.trans (by decide)

/-- `pub.decode("ascii")`. -/
def decodeAscii (pub : Bytes) : Except Failure Str :=
  if pub.all fun b => b.val < 128 then .ok (pub.map fun b => ⟨b.val, byte_lt b⟩)
  else .error (.other (lit "UnicodeDecodeError") (lit "ordinal not in range(128)"))

def announce (pub : Bytes) : Keying Unit :=
  match decodeAscii pub with
  | .ok _ => return ()
  | .error e => throw e

/-- A pair for this session. -/
def generateSession (sr : Library) : Keying Unit := do
  match sr.generateKeypair (← call) with
  | .error e => throw e
  | .ok (priv, pub) =>
    setKey fun k => { k with
      privatePem := some priv, publicPem := some pub, ephemeral := true,
      source := lit "ephemeral-session-key" }
    announce pub

/-- What follows the search of the configuration. -/
def settleKey (sr : Library) (host : Host) : Keying Unit := do
  let k := (← get).key
  match k.armed with
  | some _ =>
    match k.publicPem with
    | some pub => announce pub
    | none => return ()
  | none =>
    if envTruthy host.env (lit "SZL_RECEIPT_EPHEMERAL") true then generateSession sr
    else setKey fun k => { k with source := lit "keyless" }

section

variable (lib : Option Library)

/-- `init_signing`. -/
def initSigning (host : Host) : Keying KeyState := do
  if (← get).initialized then return (← get).key
  modify fun s => { s with initialized := true }
  match lib with
  | none => setKey fun k => { k with libraryAvailable := false, source := lit "library-absent" }
  | some sr =>
    setKey fun k => { k with libraryAvailable := true }
    readConfigured host
    deriveConfigured sr
    settleKey sr host
  return (← get).key

/-- `public_key_pem`. -/
def publicKeyPem (host : Host) : Keying (Option Str) := do
  match (← initSigning lib host).publicPem with
  | none => return none
  | some pub =>
    match decodeAscii pub with
    | .ok pem => return some pem
    | .error e => throw e

/-- What `GET /v1/receipt/pubkey` answers. -/
structure Published where
  publicKeyPem : Option Str
  source : Str
  ephemeral : Bool
  libraryAvailable : Bool
  note : Str

/-- `receipt_pubkey`. -/
def receiptPubkey (host : Host) : Keying Published := do
  let k ← initSigning lib host
  let pem ← publicKeyPem lib host
  let note :=
    if k.ephemeral then lit ("ephemeral session key — verifies THIS session's receipts only; " ++
      "not a persistent identity")
    else if k.armed.isSome then lit "configured signing key"
    else lit "receipts are UNSIGNED-honest (no key armed)"
  return ⟨pem, k.source, k.ephemeral, k.libraryAvailable, note⟩

/-- A receipt as it was signed. -/
structure Signed where
  body : Json
  key : Option Bytes
  envelope : Dict

/-- `build_envelope`, for a body that is built. -/
def buildEnvelope (host : Host) (body : Json) : Keying (Option Signed) := do
  match lib with
  | none => return none
  | some sr =>
    let k ← initSigning lib host
    match sr.signReceipt RECEIPT_KIND body k.privatePem ORGAN (← call) with
    | .error e => throw e
    | .ok envelope => return some ⟨body, k.privatePem, envelope⟩

end

/-! ### Processes -/

inductive Request
  /-- The start of the server. -/
  | start
  | receipt (body : Json)
  | publicKey

/-- What a request came to. -/
inductive Seen
  | started
  | receipt (signed : Option Signed)
  | published (p : Published)
  | raised (e : Failure)

/-- What a procedure came to, and the state at its exit. -/
def seen {α : Type} (f : α → Seen) : EStateM.Result Failure Signing α → Signing × Seen
  | .ok a s => (s, f a)
  | .error e s => (s, .raised e)

/-- One request, in the environment of its time. -/
def step (lib : Option Library) (s : Signing) (i : Host × Request) : Signing × Seen :=
  match i.2 with
  | .start => seen (fun _ => .started) (initSigning lib i.1 s)
  | .receipt body => seen .receipt (buildEnvelope lib i.1 body s)
  | .publicKey => seen .published (receiptPubkey lib i.1 s)

/-! ### The pair -/

/-- The second is the public half of the first. -/
def Paired (lib : Option Library) (priv pub : Bytes) : Prop :=
  ∃ sr, lib = some sr ∧
    (sr.derivePublicPem priv = some pub ∨ ∃ n, sr.generateKeypair n = .ok (priv, pub))

/-- A public key is there exactly with the key that it is the public half of. So what is
published never belongs to another key than the one that signs. -/
structure Consistent (lib : Option Library) (k : KeyState) : Prop where
  paired : ∀ pub, k.publicPem = some pub → ∃ priv, k.privatePem = some priv ∧ Paired lib priv pub
  unarmed : k.publicPem = none → k.armed = none

section

variable {lib : Option Library} {sr : Library} {s t : Signing}

theorem consistent_bare {k : KeyState} (hpriv : k.privatePem = none) (hpub : k.publicPem = none) :
    Consistent lib k where
  paired pub h := by rw [hpub] at h; cases h
  unarmed _ := by rw [KeyState.armed, hpriv]; rfl

/-- The search leaves no public key; interrupted, it leaves no key at all. -/
theorem readConfigured_ensures (host : Host) (hpriv : s.key.privatePem = none)
    (hpub : s.key.publicPem = none) :
    Ensures (readConfigured host) s
      (fun _ t => t.initialized = s.initialized ∧ t.key.publicPem = none)
      fun _ t => t.initialized = s.initialized ∧ t.key.privatePem = none ∧
        t.key.publicPem = none := by
  rw [readConfigured]
  dsimp only
  split_ifs with hpem hpath
  · cases utf8 (Str.strip (host.env.getD (lit "SZL_RECEIPT_KEY_PEM"))) with
    | none => exact Ensures.throw ⟨rfl, hpriv, hpub⟩
    | some raw => exact ⟨rfl, hpub⟩
  · cases host.readBytes (Str.strip (host.env.getD (lit "SZL_RECEIPT_KEY_FILE"))) with
    | none => exact Ensures.pure ⟨rfl, hpub⟩
    | some raw => exact ⟨rfl, hpub⟩
  · exact Ensures.pure ⟨rfl, hpub⟩

theorem armed_eq_some {k : KeyState} {priv : Bytes} (h : k.armed = some priv) :
    k.privatePem = some priv := (Option.filter_eq_some_iff.mp h).1

theorem deriveConfigured_ensures (hlib : lib = some sr) (hpub : s.key.publicPem = none) :
    Ensures (deriveConfigured sr) s
      (fun _ t => t.initialized = s.initialized ∧ Consistent lib t.key) fun _ _ => False := by
  refine Ensures.get ?_
  cases harmed : s.key.armed with
  | none =>
    refine Ensures.pure ⟨rfl, ⟨fun pub h => ?_, fun _ => harmed⟩⟩
    rw [hpub] at h
    cases h
  | some priv =>
    dsimp only
    cases hderive : sr.derivePublicPem priv with
    | none => exact ⟨rfl, consistent_bare rfl hpub⟩
    | some pub =>
      refine ⟨rfl, ⟨fun pub' h => ?_, fun h => by cases h⟩⟩
      obtain rfl := Option.some.inj h
      exact ⟨priv, armed_eq_some harmed, sr, hlib, .inl hderive⟩

theorem announce_ensures {P : Signing → Prop} (pub : Bytes) (h : P s) :
    Ensures (announce pub) s (fun _ t => P t) fun _ t => P t := by
  rw [announce]
  cases decodeAscii pub with
  | ok pem => exact Ensures.pure h
  | error e => exact Ensures.throw h

theorem call_ensures {α : Type} {f : ℕ → Keying α} {Q : α → Signing → Prop}
    {E : Failure → Signing → Prop} (h : Ensures (f s.calls) { s with calls := s.calls + 1 } Q E) :
    Ensures (call >>= f) s Q E := h

/-- A session's pair is there before anything is said of it. -/
theorem generateSession_ensures (hlib : lib = some sr) (h : Consistent lib s.key) :
    Ensures (generateSession sr) s
      (fun _ t => t.initialized = s.initialized ∧ Consistent lib t.key)
      fun _ t => t.initialized = s.initialized ∧ Consistent lib t.key := by
  refine call_ensures ?_
  rcases hpair : sr.generateKeypair s.calls with e | ⟨priv, pub⟩
  · exact Ensures.throw ⟨rfl, h⟩
  · refine announce_ensures
      (P := fun t => t.initialized = s.initialized ∧ Consistent lib t.key) pub ⟨rfl, ?_⟩
    refine ⟨fun pub' hpub => ?_, fun hpub => by cases hpub⟩
    obtain rfl := Option.some.inj hpub
    exact ⟨priv, rfl, sr, hlib, .inr ⟨_, hpair⟩⟩

theorem settleKey_ensures (host : Host) (hlib : lib = some sr) (h : Consistent lib s.key) :
    Ensures (settleKey sr host) s
      (fun _ t => t.initialized = s.initialized ∧ Consistent lib t.key)
      fun _ t => t.initialized = s.initialized ∧ Consistent lib t.key := by
  refine Ensures.get ?_
  dsimp only
  cases harmed : s.key.armed with
  | some priv =>
    dsimp only
    cases hpub : s.key.publicPem with
    | some pub =>
      exact announce_ensures (P := fun t => t.initialized = s.initialized ∧ Consistent lib t.key)
        pub ⟨rfl, h⟩
    | none => exact Ensures.pure ⟨rfl, h⟩
  | none =>
    dsimp only
    split_ifs
    · exact generateSession_ensures hlib h
    · exact ⟨rfl, ⟨h.paired, h.unarmed⟩⟩

/-- The state of a process, between two requests. -/
structure Inv (lib : Option Library) (s : Signing) : Prop where
  consistent : Consistent lib s.key
  fresh : s.initialized = false → s.key.privatePem = none ∧ s.key.publicPem = none

theorem inv_start : Inv lib Signing.start := ⟨consistent_bare rfl rfl, fun _ => ⟨rfl, rfl⟩⟩

/-- At either exit the search is over; a search that was over changes nothing. -/
def Searched (lib : Option Library) (s t : Signing) : Prop :=
  t.initialized = true ∧ Consistent lib t.key ∧ (s.initialized = true → t = s)

theorem Searched.inv (h : Searched lib s t) : Inv lib t :=
  ⟨h.2.1, fun hno => by rw [h.1] at hno; cases hno⟩

theorem initSigning_ensures (host : Host) (h : Inv lib s) :
    Ensures (initSigning lib host) s (fun k t => k = t.key ∧ Searched lib s t)
      fun _ t => Searched lib s t := by
  refine Ensures.get ?_
  -- a key is settled once, and later calls return it
  by_cases hinit : s.initialized = true
  · rw [if_pos hinit]
    exact ⟨rfl, hinit, h.consistent, fun _ => rfl⟩
  · rw [if_neg hinit]
    obtain ⟨hpriv, hpub⟩ := h.fresh (Bool.not_eq_true _ ▸ hinit)
    have hsearched : ∀ t : Signing, t.initialized = true → Consistent lib t.key →
        Searched lib s t := fun t ht hk => ⟨ht, hk, fun hyes => absurd hyes hinit⟩
    refine Ensures.modify ?_
    -- without the library nothing is read, and there is no key
    cases lib with
    | none => exact ⟨rfl, hsearched _ rfl (consistent_bare hpriv hpub)⟩
    | some sr =>
      refine Ensures.modify ?_
      refine ((readConfigured_ensures host ?_ ?_).mono_error fun e t ht => ?_).bind
        fun _ t₁ h₁ => ?_
      · exact hpriv
      · exact hpub
      · exact hsearched t ht.1 (consistent_bare ht.2.1 ht.2.2)
      refine ((deriveConfigured_ensures rfl h₁.2).mono_error fun e t => False.elim).bind
        fun _ t₂ h₂ => ?_
      refine ((settleKey_ensures host rfl h₂.2).mono_error fun e t ht => ?_).bind fun _ t₃ h₃ => ?_
      · exact hsearched t ((ht.1.trans h₂.1).trans h₁.1) ht.2
      · exact ⟨rfl, hsearched t₃ ((h₃.1.trans h₂.1).trans h₁.1) h₃.2⟩

/-- What is published is the public half that the state holds. -/
structure Shows (k : KeyState) (p : Published) : Prop where
  key : (k.publicPem = none ∧ p.publicKeyPem = none) ∨
    ∃ pub pem, k.publicPem = some pub ∧ decodeAscii pub = .ok pem ∧ p.publicKeyPem = some pem
  ephemeral : p.ephemeral = k.ephemeral
  source : p.source = k.source

/-- A receipt is signed by the library, with the key of the state. -/
structure SignedWith (lib : Option Library) (k : KeyState) (r : Signed) : Prop where
  key : r.key = k.privatePem
  envelope : ∃ sr n, lib = some sr ∧
    sr.signReceipt RECEIPT_KIND r.body r.key ORGAN n = .ok r.envelope

theorem Searched.again (h : Searched lib s t) {u : Signing} (h' : Searched lib t u) : u = t :=
  h'.2.2 h.1

theorem publicKeyPem_ensures (host : Host) (h : Inv lib s) :
    Ensures (publicKeyPem lib host) s
      (fun pem t => Searched lib s t ∧ ((t.key.publicPem = none ∧ pem = none) ∨
        ∃ pub text, t.key.publicPem = some pub ∧ decodeAscii pub = .ok text ∧ pem = some text))
      fun _ t => Searched lib s t := by
  refine (initSigning_ensures host h).bind fun k t ht => ?_
  obtain ⟨rfl, ht⟩ := ht
  cases hpub : t.key.publicPem with
  | none => exact Ensures.pure ⟨ht, .inl ⟨hpub, rfl⟩⟩
  | some pub =>
    dsimp only
    cases hascii : decodeAscii pub with
    | error e => exact Ensures.throw ht
    | ok text => exact Ensures.pure ⟨ht, .inr ⟨pub, text, hpub, hascii, rfl⟩⟩

theorem receiptPubkey_ensures (host : Host) (h : Inv lib s) :
    Ensures (receiptPubkey lib host) s (fun p t => Searched lib s t ∧ Shows t.key p)
      fun _ t => Searched lib s t := by
  refine (initSigning_ensures host h).bind fun k t ht => ?_
  obtain ⟨rfl, ht⟩ := ht
  -- the second search finds the first one done
  refine ((publicKeyPem_ensures host ht.inv).mono_error fun e u hu => ?_).bind
    fun pem u hu => ?_
  · exact (ht.again hu).symm ▸ ht
  · obtain ⟨hu, hpem⟩ := hu
    obtain rfl := ht.again hu
    exact Ensures.pure ⟨ht, hpem, rfl, rfl⟩

theorem buildEnvelope_ensures (host : Host) (body : Json) (h : Inv lib s) :
    Ensures (buildEnvelope lib host body) s
      (fun signed t => (lib = none ∧ t = s ∧ signed = none) ∨
        ∃ r, signed = some r ∧ r.body = body ∧ t.initialized = true ∧ SignedWith lib t.key r ∧
          Consistent lib t.key ∧ (s.initialized = true → t.key = s.key))
      fun _ t => t.initialized = true ∧ Consistent lib t.key ∧
        (s.initialized = true → t.key = s.key) := by
  rw [buildEnvelope.eq_def]
  cases lib with
  | none => exact Ensures.pure (.inl ⟨rfl, rfl, rfl⟩)
  | some sr =>
    refine ((initSigning_ensures host h).mono_error fun e t ht => ?_).bind fun k t ht => ?_
    · exact ⟨ht.1, ht.2.1, fun hs => congrArg Signing.key (ht.2.2 hs)⟩
    obtain ⟨rfl, hinit, hconsistent, hsame⟩ := ht
    have hkey : s.initialized = true → t.key = s.key := fun hs => congrArg Signing.key (hsame hs)
    refine call_ensures ?_
    cases hsign : sr.signReceipt RECEIPT_KIND body t.key.privatePem ORGAN t.calls with
    | error e => exact Ensures.throw ⟨hinit, hconsistent, hkey⟩
    | ok envelope =>
      exact Ensures.pure
        (.inr ⟨_, rfl, rfl, hinit, ⟨rfl, sr, t.calls, rfl, hsign⟩, hconsistent, hkey⟩)

/-! ### Runs -/

/-- What is seen fits the key of a state. -/
def Fits (lib : Option Library) (k : KeyState) : Seen → Prop
  | .receipt (some r) => SignedWith lib k r
  | .published p => Shows k p
  | _ => True

/-- A request leaves the key alone once it is settled, and what it answers is of the key it
leaves. -/
structure Kept (lib : Option Library) (s t : Signing) (o : Seen) : Prop where
  inv : Inv lib t
  key : s.initialized = true → t.initialized = true ∧ t.key = s.key
  fits : Fits lib t.key o
  settled : t.initialized = true ∨ (lib = none ∧ o = .receipt none)

theorem Searched.kept (h : Searched lib s t) {o : Seen} (ho : Fits lib t.key o) :
    Kept lib s t o where
  inv := h.inv
  key hs := ⟨h.1, congrArg Signing.key (h.2.2 hs)⟩
  fits := ho
  settled := .inl h.1

theorem kept_of_ensures {α : Type} {x : Keying α} {f : α → Seen}
    (h : Ensures x s (fun a t => Kept lib s t (f a)) fun e t => Kept lib s t (.raised e)) :
    Kept lib s (seen f (x s)).1 (seen f (x s)).2 := by
  rw [Ensures] at h
  revert h
  cases x s <;> exact id

theorem step_kept (h : Inv lib s) (i : Host × Request) :
    Kept lib s (step lib s i).1 (step lib s i).2 := by
  obtain ⟨host, request⟩ := i
  cases request with
  | start =>
    refine kept_of_ensures ((initSigning_ensures host h).mono ?_ ?_)
    · exact fun k t ht => ht.2.kept trivial
    · exact fun e t ht => ht.kept trivial
  | publicKey =>
    refine kept_of_ensures ((receiptPubkey_ensures host h).mono ?_ ?_)
    · exact fun p t ht => ht.1.kept ht.2
    · exact fun e t ht => ht.kept trivial
  | receipt body =>
    refine kept_of_ensures ((buildEnvelope_ensures host body h).mono ?_ ?_)
    · rintro signed t (⟨hlib, rfl, rfl⟩ | ⟨r, rfl, -, hinit, hr, hk, hkey⟩)
      · exact ⟨h, fun hs => ⟨hs, rfl⟩, trivial, .inr ⟨hlib, rfl⟩⟩
      · exact ⟨⟨hk, fun hno => by rw [hinit] at hno; cases hno⟩, fun hs => ⟨hinit, hkey hs⟩, hr,
          .inl hinit⟩
    · rintro e t ⟨hinit, hk, hkey⟩
      exact ⟨⟨hk, fun hno => by rw [hinit] at hno; cases hno⟩, fun hs => ⟨hinit, hkey hs⟩, trivial,
        .inl hinit⟩

/-- Once the key is settled, or without the library, the environment is not looked at. -/
theorem initSigning_host (hs : s.initialized = true ∨ lib = none) (host host' : Host) :
    initSigning lib host s = initSigning lib host' s := by
  rcases hs with hs | rfl
  · have hdone : ∀ host, initSigning lib host s = .ok s.key s := by
      intro host
      show (if s.initialized = true then _ else _ : Keying KeyState) s = _
      rw [if_pos hs]
      rfl
    rw [hdone, hdone]
  · rfl

theorem step_host (h : Inv lib s) (hs : s.initialized = true ∨ lib = none) (host host' : Host)
    (request : Request) : step lib s (host, request) = step lib s (host', request) := by
  have hinit := initSigning_host hs host host'
  cases request with
  | start => exact congrArg (seen fun _ => Seen.started) hinit
  | publicKey =>
    refine congrArg (seen Seen.published) ?_
    -- the key is settled when it is asked for again
    have hagain : ∀ k t, initSigning lib host' s = .ok k t →
        initSigning lib host t = initSigning lib host' t := by
      intro k t heq
      have ht := (initSigning_ensures host' h).of_ok heq
      exact initSigning_host (.inl ht.2.1) host host'
    simp only [receiptPubkey, publicKeyPem, bind, EStateM.bind, hinit]
    cases heq : initSigning lib host' s with
    | error e t => rfl
    | ok k t => simp only [hagain k t heq]
  | receipt body =>
    refine congrArg (seen Seen.receipt) ?_
    cases lib with
    | none => rfl
    | some sr => simp only [buildEnvelope, bind, EStateM.bind, hinit]

/-- The state and what was seen so far: all of it fits the one key of the state, and before there
is a key nothing of one was seen. -/
structure Ran (lib : Option Library) (s : Signing) (os : List Seen) : Prop where
  inv : Inv lib s
  fits : ∀ o ∈ os, Fits lib s.key o
  unsettled : s.initialized = false → ∀ o ∈ os, o = .receipt none

theorem Ran.step {os : List Seen} (h : Ran lib s os) (i : Host × Request) :
    Ran lib (step lib s i).1 (os ++ [(step lib s i).2]) := by
  have hkept := step_kept h.inv i
  refine ⟨hkept.inv, fun o ho => ?_, fun hno o ho => ?_⟩
  -- what was seen before fits the key that is kept from then on
  · rcases List.mem_append.mp ho with ho | ho
    · cases hs : s.initialized with
      | true =>
        rw [(hkept.key hs).2]
        exact h.fits o ho
      | false =>
        rw [h.unsettled hs o ho]
        trivial
    · rw [List.mem_singleton.mp ho]
      exact hkept.fits
  · rcases List.mem_append.mp ho with ho | ho
    · cases hs : s.initialized with
      | true =>
        rw [(hkept.key hs).1] at hno
        cases hno
      | false => exact h.unsettled hs o ho
    · rw [List.mem_singleton.mp ho]
      rcases hkept.settled with hyes | ⟨-, hnone⟩
      · rw [hyes] at hno
        cases hno
      · exact hnone

/-- Requests that meet a settled key answer alike in every environment. -/
theorem runs_host (h : Inv lib s) (hs : s.initialized = true ∨ lib = none)
    {steps steps' : List (Host × Request)} (hsame : steps'.map Prod.snd = steps.map Prod.snd) :
    runs (step lib) s steps' = runs (step lib) s steps := by
  induction steps generalizing s steps' with
  | nil => rw [List.map_eq_nil_iff.mp hsame]
  | cons i steps ih =>
    cases steps' with
    | nil => cases hsame
    | cons i' steps' =>
      obtain ⟨host, request⟩ := i
      obtain ⟨host', request'⟩ := i'
      rw [List.map_cons, List.map_cons, List.cons.injEq] at hsame
      obtain ⟨rfl, hsame⟩ := hsame
      have hkept := step_kept h (host, request')
      rw [runs_cons, runs_cons, step_host h hs host' host, ih hkept.inv ?_ hsame]
      exact hkept.settled.imp_right And.left

/-- **One key for a process.**  In every run, interrupted searches included, one key signs all
receipts, and whatever is published is its public half; what becomes of the environment after
the first request changes nothing of it. -/
theorem signing_stable (lib : Option Library) (steps : List (Host × Request)) :
    (∃ k, Consistent lib k ∧ ∀ o ∈ (runs (step lib) Signing.start steps).2, Fits lib k o) ∧
    ∀ steps', steps'.map Prod.snd = steps.map Prod.snd → steps'.head? = steps.head? →
      (runs (step lib) Signing.start steps').2 = (runs (step lib) Signing.start steps).2 := by
  constructor
  · have hran : Ran lib Signing.start [] :=
      ⟨inv_start, List.forall_mem_nil _, fun _ => List.forall_mem_nil _⟩
    have hall := runs_history (P := Ran lib) (fun s os i h => h.step i) hran steps
    exact ⟨_, hall.inv.consistent, hall.fits⟩
  · intro steps' hsame hhead
    cases steps with
    | nil => rw [List.map_eq_nil_iff.mp hsame]
    | cons i steps =>
      cases steps' with
      | nil => cases hsame
      | cons i' steps' =>
        obtain rfl := Option.some.inj hhead
        have hstart : Inv lib Signing.start := inv_start
        have hkept := step_kept hstart i'
        rw [runs_cons, runs_cons, runs_host hkept.inv (hkept.settled.imp_right And.left)
          (List.cons.inj hsame).2]

end

end Receipts

end SzlRouter
