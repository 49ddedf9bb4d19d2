/-
The identity of an embeddings request, and the key of its cache entry.

The key is a digest of the JSON text of the identity, in which a digest of the
credentials stands for them.  A text shows a string with its surrogate pairs
joined and the members of an object in order, so that is what a key can tell.

* `embedCacheKey_injective` — without collisions a key has one canonical identity;
* `embedCacheKey_congr` — a canonical identity has one key;
* `embedPayload_sound` — the payload of a call has distinct keys.
-/
import SzlRouter.Embed
import SzlRouter.JsonStable
import Mathlib.Data.Set.Function

open Py

namespace SzlRouter

namespace Identity

/-- A string as the text of an identity shows it. -/
abbrev text (s : Str) : Str := identityDumps.text s

/-- The identity as its text shows it: a surrogate pair is the character it stands for,
and the members of objects are sorted. -/
def canon (i : Identity) : Identity where
  logicalModel := text i.logicalModel
  payload := fields (Py.norm identityDumps (.obj i.payload))
  scope := text i.scope
  credential := i.credential.map text
  callerScope := text i.callerScope
  slot := text i.slot
  provider := text i.provider
  baseUrl := text i.baseUrl
  keyEnv := text i.keyEnv
  sovereign := i.sovereign
  energySource := text i.energySource

theorem norm_authJson (i : Identity) : Py.norm identityDumps i.authJson = i.canon.authJson := by
  rw [authJson, authJson, norm_arr]
  cases h : i.credential with
  | none => simp [canon, h, optStr, Py.norm]
  | some c => simp [canon, h, optStr, Py.norm]

theorem norm_toJson (i : Identity) (auth : Str) :
    Py.norm identityDumps (i.toJson auth) =
      .obj [(lit "auth_scope", .str (identityDumps.text auth)),
        (lit "logical_model", .str i.canon.logicalModel),
        (lit "namespace", .str i.canon.scope), (lit "payload", .obj i.canon.payload),
        (lit "route", .obj [(lit "base_url", .str i.canon.baseUrl),
          (lit "energy_source", .str i.canon.energySource), (lit "key_env", .str i.canon.keyEnv),
          (lit "provider", .str i.canon.provider), (lit "slot", .str i.canon.slot),
          (lit "sovereign", .bool i.canon.sovereign)]),
        (lit "schema", .str (lit "szl-embedding-cache/v2"))] :=
  rfl

theorem sound_authJson (i : Identity) : Sound identityDumps i.authJson := by
  rw [authJson, Sound, soundList_iff]
  intro v hv
  rw [optStr] at hv
  rcases List.mem_cons.mp hv with rfl | hv
  · cases i.credential <;> trivial
  · rw [List.mem_singleton.mp hv]
    trivial

/-- The keys of an identity are distinct. -/
theorem sound_toJson {i : Identity} (h : Sound identityDumps (.obj i.payload)) (auth : Str) :
    Sound identityDumps (i.toJson auth) := by
  have hroute : ([lit "slot", lit "provider", lit "base_url", lit "key_env", lit "sovereign",
      lit "energy_source"].map identityDumps.text).Nodup := by decide
  have hkeys : ([lit "schema", lit "logical_model", lit "payload", lit "namespace",
      lit "auth_scope", lit "route"].map identityDumps.text).Nodup := by decide
  exact ⟨hkeys, trivial, trivial, h, trivial, trivial,
    ⟨hroute, trivial, trivial, trivial, trivial, trivial, trivial, trivial⟩, trivial⟩

end Identity

/-! ### Keys -/

theorem dumps_of_embeddingJson {v : Json} {t : Str} (h : embeddingJson v = .ok t) :
    dumps identityDumps v = some t := by
  rw [embeddingJson] at h
  split_ifs at h
  cases hdumps : dumps identityDumps v with
  | none => rw [hdumps] at h; cases h
  | some u =>
    rw [hdumps] at h
    rw [Except.ok.inj h]

theorem embedCacheKey_ok {scopeKey : Bytes} {i : Identity} {key : Str} :
    embedCacheKey scopeKey i = .ok key ↔
      ∃ auth blob, embeddingJson i.authJson = .ok auth ∧
        embeddingJson (i.toJson (hmacSha256Hex scopeKey (encodeAscii auth))) = .ok blob ∧
        sha256Hex (encodeAscii blob) = key := by
  rw [embedCacheKey]
  constructor
  · intro h
    cases hauth : embeddingJson i.authJson with
    | error e => rw [hauth] at h; cases h
    | ok auth =>
      rw [hauth] at h
      dsimp only at h
      cases hblob : embeddingJson (i.toJson (hmacSha256Hex scopeKey (encodeAscii auth))) with
      | error e => rw [hblob] at h; cases h
      | ok blob =>
        rw [hblob] at h
        exact ⟨auth, blob, rfl, hblob, Except.ok.inj h⟩
  · rintro ⟨auth, blob, hauth, hblob, rfl⟩
    rw [hauth]
    dsimp only
    rw [hblob]

/-- The messages whose HMACs stand for the credentials of these identities. -/
def authMessages (identities : List Identity) : Set Bytes :=
  {m | ∃ i ∈ identities, ∃ auth, embeddingJson i.authJson = .ok auth ∧ m = encodeAscii auth}

/-- The messages whose digests are the keys of these identities. -/
def keyMessages (scopeKey : Bytes) (identities : List Identity) : Set Bytes :=
  {m | ∃ i ∈ identities, ∃ auth blob, embeddingJson i.authJson = .ok auth ∧
    embeddingJson (i.toJson (hmacSha256Hex scopeKey (encodeAscii auth))) = .ok blob ∧
    m = encodeAscii blob}

/-- No two messages of these identities have one digest: neither of the keyed digests of their
credentials nor of the digests that are the keys. -/
structure CollisionFree (scopeKey : Bytes) (identities : List Identity) : Prop where
  hmac : Set.InjOn (hmacSha256Hex scopeKey) (authMessages identities)
  sha256 : Set.InjOn sha256Hex (keyMessages scopeKey identities)

theorem encodeAscii_injective {v w : Json} {s t : Str} (hs : embeddingJson v = .ok s)
    (ht : embeddingJson w = .ok t) (h : encodeAscii s = encodeAscii t) : s = t :=
  (dumps_ascii rfl (dumps_of_embeddingJson hs)).flatMap_utf8Char_injective
    (dumps_ascii rfl (dumps_of_embeddingJson ht)) h

/-- Values with one text are read back as one value. -/
theorem norm_of_embeddingJson {v w : Json} {t : Str} (h : embeddingJson v = .ok t)
    (h' : embeddingJson w = .ok t) : Py.norm identityDumps v = Py.norm identityDumps w :=
  dumps_injective (dumps_of_embeddingJson h) (dumps_of_embeddingJson h')

/-- A hex digest is shown as it is. -/
theorem text_hmacSha256Hex (o : DumpOpts) (key m : Bytes) :
    o.text (hmacSha256Hex key m) = hmacSha256Hex key m := by
  have hhex : isHexDigest (hmacSha256Hex key m) = true := sha256Hex_hex _
  rw [isHexDigest, Bool.and_eq_true, List.all_eq_true] at hhex
  have hascii : Ascii (hmacSha256Hex key m) := by
    intro c hc
    have hdigit := hhex.2 c hc
    simp only [Bool.or_eq_true, Bool.and_eq_true, decide_eq_true_eq] at hdigit
    omega
  refine text_of_joinPairs (joinPairs_of_no_surrogate ?_)
  rw [List.any_eq_false]
  intro c hc
  simp [hascii.clean c hc]

theorem optStr_injective {c d : Option Str} (h : optStr c = optStr d) : c = d := by
  cases c <;> cases d <;> simp_all [optStr]

/-- Without collisions, a key has one canonical identity. The key is an HMAC of the canonical
text, so this asks that no two identities of the list collide under the scope key, and nothing of
the identities outside of it. -/
theorem embedCacheKey_injective {scopeKey : Bytes} {identities : List Identity}
    (hcoll : CollisionFree scopeKey identities) {i j : Identity} (hi : i ∈ identities)
    (hj : j ∈ identities) {key : Str} (h : embedCacheKey scopeKey i = .ok key)
    (h' : embedCacheKey scopeKey j = .ok key) : i.canon = j.canon := by
  obtain ⟨auth, blob, hauth, hblob, hkey⟩ := embedCacheKey_ok.mp h
  obtain ⟨auth', blob', hauth', hblob', hkey'⟩ := embedCacheKey_ok.mp h'
  -- the key fixes the text of the identity
  have hbytes : encodeAscii blob = encodeAscii blob' :=
    hcoll.sha256 ⟨i, hi, auth, blob, hauth, hblob, rfl⟩ ⟨j, hj, auth', blob', hauth', hblob', rfl⟩
      (hkey.trans hkey'.symm)
  obtain rfl := encodeAscii_injective hblob hblob' hbytes
  have hnorm := norm_of_embeddingJson hblob hblob'
  rw [Identity.norm_toJson, Identity.norm_toJson, text_hmacSha256Hex, text_hmacSha256Hex] at hnorm
  injection hnorm with hnorm
  simp only [List.cons.injEq, Prod.mk.injEq, Json.str.injEq, Json.obj.injEq, Json.bool.injEq,
    true_and, and_true] at hnorm
  obtain ⟨hscope, hmodel, hnamespace, hpayload, hurl, henergy, henv, hprovider, hslot, hsov⟩ :=
    hnorm
  -- the digest of the credentials fixes their text
  have hbytes : encodeAscii auth = encodeAscii auth' :=
    hcoll.hmac ⟨i, hi, auth, hauth, rfl⟩ ⟨j, hj, auth', hauth', rfl⟩ hscope
  obtain rfl := encodeAscii_injective hauth hauth' hbytes
  have hnorm := norm_of_embeddingJson hauth hauth'
  rw [Identity.norm_authJson, Identity.norm_authJson, Identity.authJson, Identity.authJson] at hnorm
  injection hnorm with hnorm
  simp only [List.cons.injEq, Json.str.injEq, and_true] at hnorm
  obtain ⟨hcredential, hcaller⟩ := hnorm
  exact Identity.ext hmodel hpayload hnamespace (optStr_injective hcredential) hcaller hslot
    hprovider hurl henv hsov henergy

/-- A canonical identity has one key. Payloads that are read back alike are written alike, so
members in another order lead to the same key. -/
theorem embedCacheKey_congr {scopeKey : Bytes} {i j : Identity}
    (hi : Sound identityDumps (.obj i.payload)) (hj : Sound identityDumps (.obj j.payload))
    {key key' : Str} (h : embedCacheKey scopeKey i = .ok key)
    (h' : embedCacheKey scopeKey j = .ok key') (hsame : i.canon = j.canon) : key = key' := by
  have hrender : ∀ {v : Json} {t : Str}, embeddingJson v = .ok t → render identityDumps v = t := by
    intro v t hv
    have hdumps := dumps_of_embeddingJson hv
    rw [dumps] at hdumps
    split_ifs at hdumps
    exact Option.some.inj hdumps
  obtain ⟨auth, blob, hauth, hblob, rfl⟩ := embedCacheKey_ok.mp h
  obtain ⟨auth', blob', hauth', hblob', rfl⟩ := embedCacheKey_ok.mp h'
  -- first the authorization, which is hashed into the text of the key
  have hauthEq : auth = auth' := by
    rw [← hrender hauth, ← hrender hauth']
    refine render_congr i.sound_authJson j.sound_authJson ?_
    rw [Identity.norm_authJson, Identity.norm_authJson, hsame]
  subst hauthEq
  have hblobEq : blob = blob' := by
    rw [← hrender hblob, ← hrender hblob']
    refine render_congr (Identity.sound_toJson hi _) (Identity.sound_toJson hj _) ?_
    rw [Identity.norm_toJson, Identity.norm_toJson, hsame]
  rw [hblobEq]

/-! ### The payloads of calls -/

theorem stable_fields {o : DumpOpts} {v : Json} (h : Stable o v) : Stable o (.obj (fields v)) := by
  cases v with
  | obj kvs => exact h
  | null | bool _ | num _ | str _ | arr _ => exact ⟨List.nodup_nil, trivial⟩

/-- What a request became has no surrogate pairs and no repeated keys. -/
theorem prepare_stable {S : Surroundings} {req : EmbedRequest} {s : CallState} {prep : Prepared}
    (o : DumpOpts) (h : (prepare S req s).1 = .ok prep) :
    Stable o prep.input ∧ Stable o (.obj prep.extra) := by
  rw [prepare] at h
  cases htext : embeddingJson (.obj [(lit "input", req.input), (lit "extra", .obj req.extra)]) with
  | error e => rw [htext] at h; cases h
  | ok t =>
    rw [htext] at h
    dsimp only at h
    cases hloads : loads plainLoads t with
    | none => rw [hloads] at h; cases h
    | some request =>
      rw [hloads] at h
      obtain rfl := Except.ok.inj h
      have hstable : Stable o request :=
        loads_stable o (dumps_ascii rfl (dumps_of_embeddingJson htext)).clean hloads
      have hget : ∀ k, Stable o ((request.get k).getD .null) := by
        intro k
        cases hk : request.get k with
        | none => trivial
        | some v => exact hstable.get hk
      exact ⟨hget _, stable_fields (hget _)⟩

/-- The payload of a call has distinct keys, in it and in every object within, so the text that
is hashed determines it. The caller's own fields come behind the model and the input. -/
theorem embedPayload_sound {S : Surroundings} {req : EmbedRequest} {s : CallState} {prep : Prepared}
    (h : (prepare S req s).1 = .ok prep) (model : Str) :
    Sound identityDumps (.obj (embedPayload prep model)) := by
  obtain ⟨hinput, hextra⟩ := prepare_stable identityDumps h
  rw [Stable, stableFields_iff] at hextra
  -- the two members that the call sets itself
  have hown : (Dict.keys [(lit "model", Json.str model), (lit "input", prep.input)]).Nodup := by
    show [lit "model", lit "input"].Nodup
    decide
  -- each member is written by its own text, those of the caller's extras included
  have hmember : ∀ p ∈ embedPayload prep model,
      identityDumps.text p.1 = p.1 ∧ Sound identityDumps p.2 := by
    intro p hp
    rcases Dict.mem_update hp with hp | hp
    · rcases List.mem_cons.mp hp with rfl | hp
      · exact ⟨show identityDumps.text (lit "model") = lit "model" by decide, trivial⟩
      · rw [List.mem_singleton.mp hp]
        exact ⟨show identityDumps.text (lit "input") = lit "input" by decide, hinput.sound⟩
    · exact ⟨(hextra.2 p hp).1, (hextra.2 p hp).2.sound⟩
  rw [Sound, soundFields_iff]
  have hmap : (embedPayload prep model).map (fun p => identityDumps.text p.1) =
      Dict.keys (embedPayload prep model) :=
    List.map_congr_left fun p hp => (hmember p hp).1
  constructor
  · rw [hmap]
    exact Dict.nodup_keys_update hown
  · intro p hp
    exact (hmember p hp).2

end SzlRouter
