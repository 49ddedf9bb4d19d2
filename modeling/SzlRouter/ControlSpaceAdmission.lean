/-
The trees of the control Space that its publisher writes over.

A Space that exists is replaced only where all of it is recognised: it is what the
renderer makes of one revision and one image, with the current card or the one before the
artwork, and the metadata of the provider.  `World.Serves` says that the Space holds a tree
under a revision; `Admissible` is recognition, in terms of the tree.

* `spaceFiles_eq_ok` — what the renderer returns, and when;
* `readBinding_rendered` — a rendered binding names the revision and the image that it was
  rendered for;
* `admitted_iff` — the tree is admitted exactly when it is recognised.
-/
import SzlRouter.ControlSpace
import SzlRouter.JsonEncoding

namespace SzlRouter

namespace ControlSpace

open Py Procedure

/-! ### Recognised trees -/

/-- The files of the Space under a revision. -/
abbrev Tree := List (Str × Bytes)

/-- The Space holds the tree under the revision, whenever it is asked. The listing and the files
are then those of one tree, as the Hub serves a revision. -/
structure World.Serves (W : World) (revision : Str) (T : Tree) : Prop where
  nodup : (Dict.keys T).Nodup
  listed : ∀ n, W.listRepoFiles n revision = .ok (Dict.keys T)
  served : ∀ n, ∀ p ∈ T, W.download n revision p.1 = .ok p.2

/-- The card, with the artwork after its YAML. -/
def card (artwork : Artwork) (revision digest : Str) : Str :=
  cardHead ++ artwork.text ++ cardBody revision digest

def legacyCard (revision digest : Str) : Str := cardHead ++ cardBody revision digest

/-- The tree is what is rendered for the revision and the image, with the current card or the one
before the artwork, and no file of it is larger than what is downloaded. -/
structure Admissible (artwork : Artwork) (T : Tree) (revision digest : Str) : Prop where
  names : sameNames (Dict.keys T) (fileNames ++ [providerMetadata]) = true
  exactSha : isSha revision = true
  exactDigest : isDigest digest = true
  readme : Dict.get T readmeName = utf8 (card artwork revision digest) ∨
    Dict.get T readmeName = utf8 (legacyCard revision digest)
  image : Dict.get T dockerfileName = utf8 (dockerfile digest)
  source : Dict.get T sourceBindingFilename = jsonBytes (binding revision digest)
  small : ∀ p ∈ T, p.2.length ≤ maxBytes

/-! ### What is rendered -/

/-- A text of the source is read character by character. -/
theorem ascii_lit (cs : List Char) (h : cs.all (fun c => c.toNat < 128) = true) :
    Ascii (lit (String.ofList cs)) := by
  intro c hc
  rw [lit, String.toList_ofList] at hc
  obtain ⟨a, ha, rfl⟩ := List.mem_map.mp hc
  exact of_decide_eq_true (List.all_eq_true.mp h a ha)

theorem ascii_of_isDigest {digest : Str} (h : isDigest digest = true) : Ascii digest := by
  obtain ⟨hstart, _, hall⟩ := of_decide_eq_true h
  obtain ⟨rest, rfl⟩ := List.isPrefixOf_iff_prefix.mp hstart
  refine (ascii_of_all (s := lit "sha256:") (by decide)).append ?_
  intro c hc
  have hhex := List.all_eq_true.mp hall c hc
  rw [Str.isHex, decide_eq_true_iff, Str.isDigit, decide_eq_true_iff] at hhex
  omega

section rendered

variable {revision digest : Str} (hsha : isSha revision = true) (hdigest : isDigest digest = true)

include hdigest in
theorem ascii_imageReference : Ascii (imageReference digest) :=
  ((ascii_lit _ (by decide)).append (ascii_lit _ (by decide))).append (ascii_of_isDigest hdigest)

theorem ascii_cardHead : Ascii cardHead :=
  (ascii_lit _ (by decide)).append (ascii_lit _ (by decide))

include hsha hdigest in
theorem ascii_cardBody : Ascii (cardBody revision digest) :=
  (((((((((ascii_lit _ (by decide)).append (ascii_lit _ (by decide))).append
    (ascii_lit _ (by decide))).append (ascii_imageReference hdigest)).append
    (ascii_lit _ (by decide))).append (ascii_of_isSha hsha)).append
    (ascii_lit _ (by decide))).append (ascii_lit _ (by decide))).append
    (ascii_lit _ (by decide))).append (ascii_lit _ (by decide))

include hdigest in
theorem ascii_dockerfile : Ascii (dockerfile digest) :=
  ((((ascii_lit _ (by decide)).append (ascii_imageReference hdigest)).append
    (ascii_lit _ (by decide))).append (ascii_lit _ (by decide))).append (ascii_lit _ (by decide))

end rendered

/-- Inside the head, where its text is found does not depend on the body. -/
theorem isPrefixOf_drop_append {w head : Str} (body : Str) {i : ℕ}
    (hi : i + w.length ≤ head.length) :
    w.isPrefixOf ((head ++ body).drop i) = w.isPrefixOf (head.drop i) := by
  rw [List.drop_append_of_le_length (by omega), Bool.eq_iff_iff, List.isPrefixOf_iff_prefix,
    List.isPrefixOf_iff_prefix]
  constructor
  · intro h
    exact List.prefix_of_prefix_length_le h (List.prefix_append _ _)
      (by rw [List.length_drop]; omega)
  · intro h
    exact h.trans (List.prefix_append _ _)

/-- The artwork goes between the YAML of the card and its body. -/
theorem withArtwork_legacyCard (artwork : Artwork) (revision digest : Str) :
    withArtwork artwork (legacyCard revision digest) = .ok (card artwork revision digest) := by
  have hlength : cardHead.length = 156 := by decide +kernel
  have hmark : (lit "\n---\n").length = 5 := rfl
  have hfound : (lit "\n---\n").isPrefixOf (cardHead.drop 151) = true := by decide +kernel
  have hbefore : ∀ i < 151, 4 ≤ i → (lit "\n---\n").isPrefixOf (cardHead.drop i) = false := by
    decide +kernel
  have hindex : indexFrom (lit "\n---\n") (legacyCard revision digest) 4 = some 151 := by
    rw [indexFrom, List.find?_range'_eq_some, legacyCard]
    refine ⟨?_, ?_, ?_⟩
    · rw [isPrefixOf_drop_append _ (by omega)]
      exact hfound
    · rw [List.length_append, List.mem_range'_1]
      omega
    · intro i hi hlt
      rw [isPrefixOf_drop_append _ (by omega), hbefore i hlt hi]
      rfl
  rw [withArtwork, hindex]
  dsimp only
  rw [hmark, legacyCard, card, List.take_left' hlength, List.drop_left' hlength]

/-- An object of texts is written. -/
theorem jsonBytes_isSome {d : Dict} (hne : d ≠ []) (htexts : ∀ p ∈ d, ∃ s, p.2 = .str s) :
    (jsonBytes d).isSome = true := by
  have hdump : dumpable indentDumps (.obj d) = true := by
    rw [dumpable, dumpableFields_iff]
    intro p hp
    obtain ⟨s, hs⟩ := htexts p hp
    rw [hs]
    rfl
  have hscalar : ∀ p ∈ d, Scalar p.2 := by
    intro p hp
    obtain ⟨s, hs⟩ := htexts p hp
    rw [hs]
    trivial
  have hnewline : ∀ k, Clean (newline k) := by
    intro k c hc
    rcases List.mem_cons.mp hc with rfl | hc
    · rfl
    · rw [List.eq_of_mem_replicate hc]
      rfl
  -- with escapes, every member is printable
  have hmember : ∀ p : Str × Json, Clean (member indentDumps (p.1, render indentDumps p.2)) := by
    intro p
    have hcolon : Ascii indentDumps.colon := ascii_of_all (by decide)
    exact (((printable_quote rfl p.1).ascii.append hcolon).append (render_ascii rfl p.2)).clean
  have hclean : Clean (renderIndent indentDumps (.obj d) 0 ++ [10]) := by
    rw [renderIndent_obj _ hne hscalar, clean_append, clean_cons, clean_append, clean_append,
      clean_append, clean_join_iff (clean_cons.mpr ⟨by decide, hnewline 1⟩), List.forall_mem_map]
    exact ⟨⟨by decide, ⟨hnewline 1, fun p _ => hmember p⟩, hnewline 0, clean_of_ascii (by decide)⟩,
      clean_of_ascii (by decide)⟩
  rw [jsonBytes, dumpsIndent, if_pos hdump, Option.bind_some, utf8_isSome]
  exact hclean

/-- What is written is read back from its bytes. -/
theorem loadsBytes_jsonBytes {lo : LoadOpts} (hlo : lo.constants = true) {d : Dict} {body : Bytes}
    (hne : d ≠ [])
    (hmembers : ∀ p ∈ d, joinPairs p.1 = p.1 ∧ ∃ s, p.2 = .str s ∧ joinPairs s = s)
    (hnodup : (Dict.keys d).Nodup) (h : jsonBytes d = some body) :
    loadsBytes lo body = some (.obj (sortByKey d)) := by
  have hloads := loads_jsonBytes hlo hne hmembers hnodup h
  have hscalar : ∀ p ∈ d, Scalar p.2 := by
    intro p hp
    obtain ⟨_, s, hs, _⟩ := hmembers p hp
    rw [hs]
    trivial
  -- the bytes start with a brace and a line feed
  obtain ⟨text, htext, hbody⟩ := Option.bind_eq_some_iff.mp h
  rw [dumpsIndent] at htext
  split_ifs at htext with hdump
  obtain rfl := Option.some.inj htext
  have hdecode := decodeUtf8_utf8 hbody
  rw [renderIndent_obj _ hne hscalar] at hbody
  rw [utf8] at hbody
  split_ifs at hbody with hclean
  obtain rfl := Option.some.inj hbody
  rw [hdecode, Option.bind_some] at hloads
  exact (loadsBytes_of_utf8 lo (by decide) (by decide) hdecode).trans hloads

/-- The bytes of a text that can be encoded. -/
def encoded (text : Str) : Bytes := (utf8 text).getD []

theorem utf8_encoded {text : Str} (h : Clean text) : utf8 text = some (encoded text) := by
  obtain ⟨b, hb⟩ := Option.isSome_iff_exists.mp (utf8_isSome.mpr h)
  rw [encoded, hb]
  rfl

def renderedBinding (revision digest : Str) : Bytes :=
  (jsonBytes (binding revision digest)).getD []

/-- The rendered files, with one card or the other. -/
def rendered (readme revision digest : Str) : Tree :=
  [(readmeName, encoded readme), (dockerfileName, encoded (dockerfile digest)),
    (sourceBindingFilename, renderedBinding revision digest)]

theorem get_readme (readme revision digest : Str) :
    Dict.get (rendered readme revision digest) readmeName = some (encoded readme) := by
  rw [rendered, Dict.get_cons, if_pos rfl]

section rendered

variable {artwork : Artwork} {revision digest : Str} (hsha : isSha revision = true)
  (hdigest : isDigest digest = true)

include hsha hdigest in
theorem clean_legacyCard : Clean (legacyCard revision digest) :=
  (ascii_cardHead.append (ascii_cardBody hsha hdigest)).clean

include hsha hdigest in
theorem clean_card (artwork : Artwork) : Clean (card artwork revision digest) :=
  clean_append.mpr ⟨clean_append.mpr ⟨ascii_cardHead.clean, artwork.clean⟩,
    (ascii_cardBody hsha hdigest).clean⟩

include hsha hdigest in
/-- The members of the binding are texts of ASCII. -/
theorem binding_members : ∀ p ∈ binding revision digest,
    Ascii p.1 ∧ ∃ s, p.2 = .str s ∧ Ascii s := by
  have hgiven : ∀ {k s : Str}, Ascii k → Ascii s →
      Ascii k ∧ ∃ s', Json.str s = .str s' ∧ Ascii s' :=
    fun hk hs => ⟨hk, _, rfl, hs⟩
  rw [binding]
  simp only [List.forall_mem_cons]
  exact ⟨hgiven (ascii_lit _ (by decide)) (ascii_lit _ (by decide)),
    hgiven (ascii_lit _ (by decide)) (ascii_lit _ (by decide)),
    hgiven (ascii_lit _ (by decide)) (ascii_lit _ (by decide)),
    hgiven (ascii_lit _ (by decide)) (ascii_of_isSha hsha),
    hgiven (ascii_lit _ (by decide)) (ascii_imageReference hdigest),
    hgiven (ascii_lit _ (by decide)) (ascii_of_isDigest hdigest),
    hgiven (ascii_lit _ (by decide)) (ascii_lit _ (by decide)),
    hgiven (ascii_lit _ (by decide)) (ascii_lit _ (by decide)),
    fun p hp => absurd hp List.not_mem_nil⟩

theorem keys_binding (revision digest : Str) : (Dict.keys (binding revision digest)).Nodup := by
  show (["schema", "target", "source_repository", "source_revision", "image_reference",
    "image_digest", "egress_policy", "inference_state"].map lit).Nodup
  decide

include hsha hdigest in
theorem jsonBytes_binding :
    jsonBytes (binding revision digest) = some (renderedBinding revision digest) := by
  have hsome : (jsonBytes (binding revision digest)).isSome = true :=
    jsonBytes_isSome (List.cons_ne_nil _ _) fun p hp => by
      obtain ⟨_, s, hs, _⟩ := binding_members hsha hdigest p hp
      exact ⟨s, hs⟩
  obtain ⟨body, hbody⟩ := Option.isSome_iff_exists.mp hsome
  rw [renderedBinding, hbody]
  rfl

include hsha hdigest in
/-- A rendered binding names the revision and the image it was rendered for. The publisher reads
these two back from an existing Space, so no Space can pass for what was rendered for another
pair. -/
theorem readBinding_rendered :
    readBinding (renderedBinding revision digest) = .ok (.str revision, .str digest) := by
  have hloads : loadsBytes plainLoads (renderedBinding revision digest) =
      some (.obj (sortByKey (binding revision digest))) := by
    refine loadsBytes_jsonBytes rfl (List.cons_ne_nil _ _) ?_ (keys_binding revision digest)
      (jsonBytes_binding hsha hdigest)
    intro p hp
    obtain ⟨hkey, s, hs, hascii⟩ := binding_members hsha hdigest p hp
    exact ⟨joinPairs_of_ascii hkey, s, hs, joinPairs_of_ascii hascii⟩
  have hfield : ∀ k, field (sortByKey (binding revision digest)) k =
      field (binding revision digest) k := by
    intro k
    rw [field, Dict.get_sortByKey (keys_binding revision digest), field]
  rw [readBinding, hloads]
  dsimp only
  simp only [hfield]
  rfl

omit hsha hdigest in
theorem exactSha_ok_iff {value : Json} {code s : Str} :
    exactSha value code = .ok s ↔ value = .str s ∧ isSha s = true := by
  cases value with
  | str t =>
    rw [exactSha]
    by_cases ht : isSha t = true
    · rw [if_pos ht]
      constructor
      · intro h
        obtain rfl := Except.ok.inj h
        exact ⟨rfl, ht⟩
      · rintro ⟨h, _⟩
        exact congrArg Except.ok (Json.str.inj h)
    · rw [if_neg ht]
      refine iff_of_false (by simp) ?_
      rintro ⟨h, hs⟩
      exact ht (Json.str.inj h ▸ hs)
  | _ => simp [exactSha]

omit hsha hdigest in
theorem exactDigest_ok_iff {value : Json} {s : Str} :
    exactDigest value = .ok s ↔ value = .str s ∧ isDigest s = true := by
  cases value with
  | str t =>
    rw [exactDigest]
    by_cases ht : isDigest t = true
    · rw [if_pos ht]
      constructor
      · intro h
        obtain rfl := Except.ok.inj h
        exact ⟨rfl, ht⟩
      · rintro ⟨h, _⟩
        exact congrArg Except.ok (Json.str.inj h)
    · rw [if_neg ht]
      refine iff_of_false (by simp) ?_
      rintro ⟨h, hs⟩
      exact ht (Json.str.inj h ▸ hs)
  | _ => simp [exactDigest]

theorem encode_eq_ok {text : Str} (h : Clean text) : encode text = .ok (encoded text) := by
  rw [encode, utf8_encoded h]

include hsha hdigest in
/-- The renderer returns for every revision and every digest. -/
theorem legacySpaceFiles_eq : legacySpaceFiles (.str revision) (.str digest) =
    .ok (rendered (legacyCard revision digest) revision digest) := by
  have hencode : encode (cardHead ++ cardBody revision digest) =
      .ok (encoded (legacyCard revision digest)) := encode_eq_ok (clean_legacyCard hsha hdigest)
  have hbinding :
      bindingBytes (binding revision digest) = .ok (renderedBinding revision digest) := by
    rw [bindingBytes, jsonBytes_binding hsha hdigest]
  exact except_bind_eq_ok.mpr ⟨_, exactSha_ok_iff.mpr ⟨rfl, hsha⟩,
    except_bind_eq_ok.mpr ⟨_, exactDigest_ok_iff.mpr ⟨rfl, hdigest⟩,
      except_bind_eq_ok.mpr ⟨_, hencode,
        except_bind_eq_ok.mpr ⟨_, encode_eq_ok (ascii_dockerfile hdigest).clean,
          except_bind_eq_ok.mpr ⟨_, hbinding, rfl⟩⟩⟩⟩⟩

include hsha hdigest in
theorem spaceFiles_eq : spaceFiles artwork (.str revision) (.str digest) =
    .ok (rendered (card artwork revision digest) revision digest) := by
  have hreadme : decodeUtf8 (encoded (legacyCard revision digest)) =
      some (legacyCard revision digest) :=
    decodeUtf8_utf8 (utf8_encoded (clean_legacyCard hsha hdigest))
  refine except_bind_eq_ok.mpr ⟨_, legacySpaceFiles_eq hsha hdigest, ?_⟩
  rw [get_readme, Option.getD_some, hreadme]
  exact except_bind_eq_ok.mpr ⟨_, rfl,
    except_bind_eq_ok.mpr ⟨_, withArtwork_legacyCard artwork revision digest,
      except_bind_eq_ok.mpr ⟨_, encode_eq_ok (clean_card hsha hdigest artwork), rfl⟩⟩⟩

omit hsha hdigest in
theorem legacySpaceFiles_inv {revision digest : Json} {files : Tree}
    (h : legacySpaceFiles revision digest = .ok files) :
    ∃ r d, revision = .str r ∧ digest = .str d ∧ isSha r = true ∧ isDigest d = true := by
  rw [legacySpaceFiles] at h
  obtain ⟨r, hr, h⟩ := except_bind_eq_ok.mp h
  obtain ⟨d, hd, _⟩ := except_bind_eq_ok.mp h
  obtain ⟨hrevision, hsha⟩ := exactSha_ok_iff.mp hr
  obtain ⟨hdigest, hdigest'⟩ := exactDigest_ok_iff.mp hd
  exact ⟨r, d, hrevision, hdigest, hsha, hdigest'⟩

omit hsha hdigest in
/-- What the renderer returns, and when: both arguments are texts, the first an exact SHA and the
second an exact digest, and the files are the rendered ones. -/
theorem spaceFiles_eq_ok {revision digest : Json} {files : Tree} :
    spaceFiles artwork revision digest = .ok files ↔ ∃ r d, revision = .str r ∧ digest = .str d ∧
      isSha r = true ∧ isDigest d = true ∧ files = rendered (card artwork r d) r d := by
  constructor
  · intro h
    obtain ⟨legacy, hlegacy, _⟩ := except_bind_eq_ok.mp (spaceFiles.eq_def _ _ _ ▸ h)
    obtain ⟨r, d, rfl, rfl, hsha, hdigest⟩ := legacySpaceFiles_inv hlegacy
    rw [spaceFiles_eq hsha hdigest] at h
    exact ⟨r, d, rfl, rfl, hsha, hdigest, (Except.ok.inj h).symm⟩
  · rintro ⟨r, d, rfl, rfl, hsha, hdigest, rfl⟩
    exact spaceFiles_eq hsha hdigest

theorem boundFiles_eq_ok {revision digest : Json} {files : Tree} :
    boundFiles artwork revision digest = .ok files ↔
      spaceFiles artwork revision digest = .ok files := by
  rw [boundFiles]
  split
  · rename_i h
    rw [h]
    simp
  · rfl

end rendered

/-! ### Admission -/

section answers

variable {W : World} {T : Tree} {at_ : Str}

theorem orRaise_answers {α : Type} (x : Except Raised α) :
    Answers (orRaise x) fun a => x = .ok a := by
  cases x with
  | error e => exact (Answers.throw e).congr fun a => by simp
  | ok b => exact (Answers.pure b).congr fun a => by simp [eq_comm]

theorem call_answers {α : Type} {question : ℕ → Except Raised α} {a : α}
    (h : ∀ n, question n = .ok a) : Answers (call question) (· = a) := by
  have hask : Answers (ask question) (· = .ok a) := by
    intro s b
    rw [ask, h]
    simp [eq_comm]
  refine (hask.bind (B := fun _ b => b = a) ?_).congr fun b => by simp
  rintro _ rfl
  exact Answers.pure a

theorem listFiles_answers (hW : W.Serves at_ T) : Answers (listFiles W at_) (· = Dict.keys T) :=
  call_answers fun n => hW.listed n

theorem downloadBytes_answers (hW : W.Serves at_ T) {name : Str} (hname : name ∈ Dict.keys T) :
    Answers (downloadBytes W name at_) fun body =>
      Dict.get T name = some body ∧ body.length ≤ maxBytes := by
  obtain ⟨p, hp, hkey⟩ := List.mem_map.mp hname
  have hget : Dict.get T name = some p.2 := (Dict.get_eq_some hW.nodup).mpr (hkey ▸ hp)
  have hserved : ∀ n, W.download n at_ name = .ok p.2 := fun n => hkey ▸ hW.served n p hp
  refine ((call_answers hserved).bind (B := fun a b => a.length ≤ maxBytes ∧ b = a) ?_).congr ?_
  · intro body _
    exact (Answers.unless fun _ => Answers.pure body).congr fun b => by rw [not_lt]
  · intro body
    rw [hget]
    constructor
    · rintro ⟨_, rfl, hsmall, rfl⟩
      exact ⟨rfl, hsmall⟩
    · rintro ⟨hbody, hsmall⟩
      exact ⟨body, (Option.some.inj hbody).symm, hsmall, rfl⟩

/-- The comparisons pass where each file is one of those that are accepted. -/
theorem compareFiles_answers (hW : W.Serves at_ T) {code : Str} {files : List (Str × List Bytes)}
    (hnames : ∀ p ∈ files, p.1 ∈ Dict.keys T) :
    Answers (compareFiles W at_ code files) fun _ => ∀ p ∈ files, ∃ body,
      Dict.get T p.1 = some body ∧ body.length ≤ maxBytes ∧ body ∈ p.2 := by
  induction files with
  | nil => exact (Answers.pure ()).congr fun _ => by simp
  | cons p files ih =>
    obtain ⟨hname, hnames⟩ := List.forall_mem_cons.mp hnames
    refine ((downloadBytes_answers hW hname).bind (B := fun body _ => body ∈ p.2 ∧
      ∀ p ∈ files, ∃ body, Dict.get T p.1 = some body ∧ body.length ≤ maxBytes ∧ body ∈ p.2)
      ?_).congr ?_
    · intro body _
      exact (Answers.unless fun _ => ih hnames).congr fun _ => by rw [not_not]
    · intro _
      rw [List.forall_mem_cons]
      constructor
      · rintro ⟨body, ⟨hget, hsmall⟩, hmem, hrest⟩
        exact ⟨⟨body, hget, hsmall, hmem⟩, hrest⟩
      · rintro ⟨⟨body, hget, hsmall, hmem⟩, hrest⟩
        exact ⟨body, ⟨hget, hsmall⟩, hmem, hrest⟩

/-- A handler changes no value. -/
theorem rejecting_answers {α : Type} {catches : ProviderError → Bool} {code : Str}
    {x : Publisher α} {A : α → Prop} (h : Answers x A) : Answers (rejecting catches code x) A := by
  intro s a
  rw [← h s a, rejecting]
  split
  · rename_i hx
    rw [hx]
    split_ifs <;> simp
  · rfl

theorem sameNames_iff {observed names : List Str} :
    sameNames observed names = true ↔ ∀ x, x ∈ observed ↔ x ∈ names := by
  rw [sameNames, Bool.and_eq_true, List.all_eq_true, List.all_eq_true]
  simp only [decide_eq_true_eq]
  constructor
  · rintro ⟨h₁, h₂⟩ x
    exact ⟨h₁ x, h₂ x⟩
  · intro h
    exact ⟨fun x => (h x).mp, fun x => (h x).mpr⟩

/-- The binding of the tree names the revision and the image, and each file is accepted. No other
pair could be read off the tree, so what it was rendered for is determined. -/
structure Recognised (artwork : Artwork) (T : Tree) (r d : Str) : Prop where
  source : ∃ body, (Dict.get T sourceBindingFilename = some body ∧ body.length ≤ maxBytes) ∧
    readBinding body = .ok (.str r, .str d)
  exactSha : isSha r = true
  exactDigest : isDigest d = true
  accepted : ∀ p ∈ acceptedFiles (rendered (card artwork r d) r d) (rendered (legacyCard r d) r d),
    ∃ body, Dict.get T p.1 = some body ∧ body.length ≤ maxBytes ∧ body ∈ p.2

/-- A Space that is not the scaffold of a failed creation is read file by file. -/
theorem existingTargetAdmitted_answers (hW : W.Serves at_ T) (artwork : Artwork)
    (hscaffold : sameNames (Dict.keys T) [providerMetadata, readmeName] = false) :
    Answers (existingTargetAdmitted W artwork at_) fun metadata =>
      sameNames (Dict.keys T) (fileNames ++ [providerMetadata]) = true ∧
      (∃ r d, Recognised artwork T r d) ∧
      Dict.get T providerMetadata = some metadata ∧ metadata.length ≤ maxBytes := by
  refine ((listFiles_answers hW).bind (B := fun _ metadata =>
    sameNames (Dict.keys T) (fileNames ++ [providerMetadata]) = true ∧
      (∃ r d, Recognised artwork T r d) ∧
      Dict.get T providerMetadata = some metadata ∧ metadata.length ≤ maxBytes) ?_).congr ?_
  swap
  · intro metadata
    simp
  rintro _ rfl
  rw [if_neg (by simp [hscaffold])]
  refine (Answers.unless (A := fun metadata =>
    (∃ r d, Recognised artwork T r d) ∧
      Dict.get T providerMetadata = some metadata ∧ metadata.length ≤ maxBytes)
    fun hnames => ?_).congr fun metadata => by simp
  -- every file that is downloaded is in the listing, so it is served
  have hkeys : ∀ {name : Str}, name ∈ fileNames ++ [providerMetadata] → name ∈ Dict.keys T :=
    fun hname => (sameNames_iff.mp (by simpa using hnames) _).mpr hname
  have hcompared : ∀ {r d : Json} {current legacy : Tree},
      boundFiles artwork r d = .ok current →
      ∀ p ∈ acceptedFiles current legacy, p.1 ∈ Dict.keys T := by
    intro r d current legacy hcurrent p hp
    obtain ⟨q, hq, rfl⟩ := List.mem_map.mp hp
    obtain ⟨r, d, _, _, _, _, rfl⟩ := spaceFiles_eq_ok.mp (boundFiles_eq_ok.mp hcurrent)
    exact hkeys (List.mem_append_left _ (List.mem_map_of_mem (f := Prod.fst) hq))
  -- the binding names what was rendered, the files are compared with that, and then the metadata is
  -- read
  refine ((rejecting_answers (downloadBytes_answers hW (hkeys (by decide)))).bind fun body _ =>
    (orRaise_answers (readBinding body)).bind fun bound _ =>
      (orRaise_answers (boundFiles artwork bound.1 bound.2)).bind fun current hcurrent =>
        (orRaise_answers (legacySpaceFiles bound.1 bound.2)).bind fun legacy _ =>
          (compareFiles_answers hW (hcompared hcurrent)).bind fun _ _ =>
            downloadBytes_answers hW (hkeys (by decide))).congr ?_
  intro metadata
  constructor
  · rintro ⟨body, hsource, ⟨_, _⟩, hread, current, hcurrent, legacy, hlegacy, _, haccepted, hmeta⟩
    obtain ⟨r, d, rfl, rfl, hsha, hdigest, rfl⟩ :=
      spaceFiles_eq_ok.mp (boundFiles_eq_ok.mp hcurrent)
    obtain rfl := Except.ok.inj ((legacySpaceFiles_eq hsha hdigest).symm.trans hlegacy)
    exact ⟨⟨r, d, ⟨body, hsource, hread⟩, hsha, hdigest, haccepted⟩, hmeta⟩
  · rintro ⟨⟨r, d, ⟨body, hsource, hread⟩, hsha, hdigest, haccepted⟩, hmeta⟩
    exact ⟨body, hsource, _, hread, _, boundFiles_eq_ok.mpr (spaceFiles_eq hsha hdigest), _,
      legacySpaceFiles_eq hsha hdigest, (), haccepted, hmeta⟩

theorem acceptedFiles_rendered (readme legacy r d : Str) :
    acceptedFiles (rendered readme r d) (rendered legacy r d) =
      [(readmeName, [encoded readme, encoded legacy]), (dockerfileName, [encoded (dockerfile d)]),
        (sourceBindingFilename, [renderedBinding r d])] := by
  have hdocker : dockerfileName ≠ readmeName := by decide
  have hbinding : sourceBindingFilename ≠ readmeName := by decide
  rw [acceptedFiles, get_readme, Option.getD_some, rendered]
  simp only [List.map_cons, List.map_nil, if_neg hdocker, if_neg hbinding, if_true]

/-- A tree is recognised exactly when it is one that is rendered. -/
theorem recognised_iff (hnodup : (Dict.keys T).Nodup) {artwork : Artwork} {r d : Str}
    (hnames : sameNames (Dict.keys T) (fileNames ++ [providerMetadata]) = true) :
    Recognised artwork T r d ∧
        (∃ metadata, Dict.get T providerMetadata = some metadata ∧ metadata.length ≤ maxBytes) ↔
      Admissible artwork T r d := by
  constructor
  · rintro ⟨⟨_, hsha, hdigest, haccepted⟩, metadata, hmeta, hsmall⟩
    rw [acceptedFiles_rendered] at haccepted
    simp only [List.forall_mem_cons] at haccepted
    simp only [List.mem_cons, List.not_mem_nil, or_false] at haccepted
    obtain ⟨⟨readme, hreadme, hreadme', hcard⟩, ⟨_, himage, himage', rfl⟩,
      ⟨_, hsource, hsource', rfl⟩, _⟩ := haccepted
    refine ⟨hnames, hsha, hdigest, ?_, ?_, ?_, ?_⟩
    · rw [hreadme]
      have hcurrent := utf8_encoded (clean_card hsha hdigest artwork)
      have hlegacy := utf8_encoded (clean_legacyCard hsha hdigest)
      exact hcard.imp (fun h => (congrArg some h).trans hcurrent.symm)
        fun h => (congrArg some h).trans hlegacy.symm
    · rw [himage, utf8_encoded (ascii_dockerfile hdigest).clean]
    · rw [hsource, jsonBytes_binding hsha hdigest]
    · intro p hp
      have hget := (Dict.get_eq_some hnodup).mpr hp
      have hname := (sameNames_iff.mp hnames p.1).mp (List.mem_map_of_mem hp)
      -- one of the four names, each with its own bound
      have hbound : ∀ {name : Str} {body : Bytes}, p.1 = name → Dict.get T name = some body →
          body.length ≤ maxBytes → p.2.length ≤ maxBytes := by
        intro name body hkey hbody hle
        rw [← hkey, hget] at hbody
        exact Option.some.inj hbody ▸ hle
      simp only [fileNames, List.mem_append, List.mem_cons, List.not_mem_nil, or_false] at hname
      rcases hname with (h | h | h) | h
      · exact hbound h hreadme hreadme'
      · exact hbound h himage himage'
      · exact hbound h hsource hsource'
      · exact hbound h hmeta hsmall
  · intro h
    have hsmall : ∀ {name : Str} {body : Bytes}, Dict.get T name = some body →
        body.length ≤ maxBytes :=
      fun hget => h.small _ ((Dict.get_eq_some hnodup).mp hget)
    have hsource := h.source.trans (jsonBytes_binding h.exactSha h.exactDigest)
    have himage := h.image.trans (utf8_encoded (ascii_dockerfile h.exactDigest).clean)
    have hmem : providerMetadata ∈ Dict.keys T := (sameNames_iff.mp hnames _).mpr (by decide)
    obtain ⟨p, hp, hkey⟩ := List.mem_map.mp hmem
    have hmeta := (Dict.get_eq_some hnodup).mpr hp
    refine ⟨⟨⟨_, ⟨hsource, hsmall hsource⟩, readBinding_rendered h.exactSha h.exactDigest⟩,
      h.exactSha, h.exactDigest, ?_⟩, p.2, hkey ▸ hmeta, hsmall hmeta⟩
    rw [acceptedFiles_rendered]
    simp only [List.forall_mem_cons]
    refine ⟨?_, ⟨_, himage, hsmall himage, List.mem_singleton_self _⟩,
      ⟨_, hsource, hsmall hsource, List.mem_singleton_self _⟩,
      fun p hp => absurd hp List.not_mem_nil⟩
    rcases h.readme with hreadme | hreadme
    · rw [utf8_encoded (clean_card h.exactSha h.exactDigest artwork)] at hreadme
      exact ⟨_, hreadme, hsmall hreadme, List.mem_cons_self⟩
    · rw [utf8_encoded (clean_legacyCard h.exactSha h.exactDigest)] at hreadme
      exact ⟨_, hreadme, hsmall hreadme, List.mem_cons_of_mem _ List.mem_cons_self⟩

/-- A tree is rendered for one revision and one image. -/
theorem Admissible.unique {artwork artwork' : Artwork} {r d r' d' : Str}
    (h : Admissible artwork T r d) (h' : Admissible artwork' T r' d') : r = r' ∧ d = d' := by
  have hsource := h.source.trans (jsonBytes_binding h.exactSha h.exactDigest)
  have hsource' := h'.source.trans (jsonBytes_binding h'.exactSha h'.exactDigest)
  have hsame := Option.some.inj (hsource.symm.trans hsource')
  have hread := readBinding_rendered h.exactSha h.exactDigest
  rw [hsame, readBinding_rendered h'.exactSha h'.exactDigest] at hread
  obtain ⟨hr, hd⟩ := Prod.mk.inj (Except.ok.inj hread)
  exact ⟨(Json.str.inj hr).symm, (Json.str.inj hd).symm⟩

end answers

/-! ### What is read of a tree -/

section read

variable {W : World} {T : Tree} {at_ : Str} {s t : State}

/-- The files of a scaffold, as they are downloaded. -/
theorem downloadAll_ok (hW : W.Serves at_ T) {names : List Str}
    (hnames : ∀ name ∈ names, name ∈ Dict.keys T) {files : Tree}
    (h : downloadAll W at_ names s = .ok files t) {name : Str} (hname : name ∈ names) :
    ∃ body, Dict.get files name = some body ∧ Dict.get T name = some body := by
  induction names generalizing s t files with
  | nil => exact absurd hname List.not_mem_nil
  | cons first names ih =>
    obtain ⟨hfirst, hnames⟩ := List.forall_mem_cons.mp hnames
    obtain ⟨body, u, hbody, h⟩ := bind_eq_ok.mp h
    obtain ⟨rest, v, hrest, h⟩ := bind_eq_ok.mp h
    obtain ⟨rfl, _⟩ := pure_eq_ok.mp h
    obtain ⟨hget, _⟩ := (downloadBytes_answers hW hfirst s body).mp ⟨u, hbody⟩
    rw [Dict.get_cons]
    by_cases heq : first = name
    · rw [if_pos heq, ← heq]
      exact ⟨body, rfl, hget⟩
    · rw [if_neg heq]
      exact ih hnames hrest ((List.mem_cons.mp hname).resolve_left (Ne.symm heq))

theorem rejecting_ok {α : Type} {catches : ProviderError → Bool} {code : Str} {x : Publisher α}
    {a : α} (h : rejecting catches code x s = .ok a t) : x s = .ok a t := by
  rw [rejecting] at h
  split at h
  · split_ifs at h
  · exact h

/-- What is kept is the tree's own metadata, also where the tree is a scaffold. -/
theorem metadata_of_admitted (hW : W.Serves at_ T) {artwork : Artwork} {metadata : Bytes}
    (h : existingTargetAdmitted W artwork at_ s = .ok metadata t) :
    Dict.get T providerMetadata = some metadata := by
  by_cases hscaffold : sameNames (Dict.keys T) [providerMetadata, readmeName] = true
  · obtain ⟨observed, u, hobserved, h⟩ := bind_eq_ok.mp (existingTargetAdmitted.eq_def .. ▸ h)
    obtain rfl := (listFiles_answers hW s observed).mp ⟨u, hobserved⟩
    rw [if_pos hscaffold, recoverBootstrapMetadata] at h
    obtain ⟨files, v, hfiles, h⟩ := bind_eq_ok.mp h
    obtain ⟨rfl, _⟩ := pure_eq_ok.mp h
    obtain ⟨_, _, _, hfiles⟩ := bind_eq_ok.mp (rejecting_ok hfiles)
    obtain ⟨_, _, _, hfiles⟩ := bind_eq_ok.mp hfiles
    obtain ⟨all, _, hall, hfiles⟩ := bind_eq_ok.mp hfiles
    obtain ⟨_, _, _, hfiles⟩ := bind_eq_ok.mp hfiles
    obtain ⟨rfl, _⟩ := pure_eq_ok.mp hfiles
    -- the scaffold of a failed creation: its metadata file is one of the two that are downloaded
    have hmem : providerMetadata ∈ (Dict.keys T).dedup :=
      List.mem_dedup.mpr ((sameNames_iff.mp hscaffold _).mpr List.mem_cons_self)
    obtain ⟨body, hbody, hget⟩ :=
      downloadAll_ok hW (fun _ hname => List.mem_dedup.mp hname) hall hmem
    rw [hbody]
    exact hget
  · rw [Bool.not_eq_true] at hscaffold
    exact ((existingTargetAdmitted_answers hW artwork hscaffold s metadata).mp ⟨t, h⟩).2.2.1

theorem metadata_of_new (hW : W.Serves at_ T) {metadata : Bytes}
    (h : newTargetMetadata W at_ s = .ok metadata t) :
    Dict.get T providerMetadata = some metadata := by
  rw [newTargetMetadata] at h
  obtain ⟨observed, u, hobserved, h⟩ := bind_eq_ok.mp h
  obtain rfl := (listFiles_answers hW s observed).mp ⟨u, hobserved⟩
  split_ifs at h with hrefused
  · exact absurd h throw_bind_ne_ok
  · have hmem : providerMetadata ∈ Dict.keys T := by
      rcases not_and_or.mp hrefused with hnames | hnames
      · exact (sameNames_iff.mp (by simpa using hnames) _).mpr List.mem_cons_self
      · exact (sameNames_iff.mp (by simpa using hnames) _).mpr List.mem_cons_self
    exact ((downloadBytes_answers hW hmem u metadata).mp ⟨t, h⟩).1

/-- A tree that was verified has just the current files and the metadata. -/
theorem files_of_verified (hW : W.Serves at_ T) {files : Tree}
    (hkeys : Dict.keys files = fileNames) {metadata : Bytes}
    (h : verifyFiles W at_ files metadata s = .ok () t) :
    (∀ p, p ∈ T ↔ p ∈ files ++ [(providerMetadata, metadata)]) ∧
    ∀ p ∈ T, p.2.length ≤ maxBytes := by
  rw [verifyFiles] at h
  obtain ⟨observed, u, hobserved, h⟩ := bind_eq_ok.mp h
  obtain rfl := (listFiles_answers hW s observed).mp ⟨u, hobserved⟩
  split_ifs at h with hrefused
  · exact absurd h throw_bind_ne_ok
  have hnames : sameNames (Dict.keys T) (fileNames ++ [providerMetadata]) = true := by
    simpa using hrefused
  have hheld : ∀ {name : Str}, name ∈ fileNames ++ [providerMetadata] → name ∈ Dict.keys T :=
    fun hname => (sameNames_iff.mp hnames _).mpr hname
  obtain ⟨_, v, hfiles, hmeta⟩ := bind_eq_ok.mp h
  have hfiles := (compareFiles_answers hW (fun p hp => by
    obtain ⟨q, hq, rfl⟩ := List.mem_map.mp hp
    exact hheld (List.mem_append_left _ (hkeys ▸ List.mem_map_of_mem (f := Prod.fst) hq))) u
      ()).mp ⟨v, hfiles⟩
  have hmeta := (compareFiles_answers hW (fun p hp => by
    rw [List.mem_singleton.mp hp]
    exact hheld (List.mem_append_right _ (List.mem_singleton_self _))) v ()).mp ⟨t, hmeta⟩
  -- each of the files was compared with its download
  have hread : ∀ p ∈ files ++ [(providerMetadata, metadata)],
      Dict.get T p.1 = some p.2 ∧ p.2.length ≤ maxBytes := by
    intro p hp
    rcases List.mem_append.mp hp with hp | hp
    · obtain ⟨body, hget, hsmall, hsame⟩ := hfiles _ (List.mem_map_of_mem hp)
      obtain rfl := List.mem_singleton.mp hsame
      exact ⟨hget, hsmall⟩
    · obtain rfl := List.mem_singleton.mp hp
      obtain ⟨body, hget, hsmall, hsame⟩ := hmeta _ (List.mem_singleton_self _)
      obtain rfl := List.mem_singleton.mp hsame
      exact ⟨hget, hsmall⟩
  have hmem : ∀ p, p ∈ T ↔ p ∈ files ++ [(providerMetadata, metadata)] := by
    intro p
    constructor
    · intro hp
      have hname := (sameNames_iff.mp hnames _).mp (List.mem_map_of_mem (f := Prod.fst) hp)
      have hlisted : p.1 ∈ (files ++ [(providerMetadata, metadata)]).map Prod.fst := by
        rw [List.map_append, show files.map Prod.fst = fileNames from hkeys]
        exact hname
      obtain ⟨q, hq, hkey⟩ := List.mem_map.mp hlisted
      have hget := (hread q hq).1
      rw [hkey, (Dict.get_eq_some hW.nodup).mpr hp] at hget
      obtain rfl : q = p := Prod.ext hkey (Option.some.inj hget).symm
      exact hq
    · exact fun hp => (Dict.get_eq_some hW.nodup).mp (hread p hp).1
  exact ⟨hmem, fun p hp => (hread p ((hmem p).mp hp)).2⟩

/-- What was verified is recognised, with the current card. -/
theorem admissible_of_files {T : Tree} (hnodup : (Dict.keys T).Nodup) {artwork : Artwork}
    {r d : Str} {metadata : Bytes} (hsha : isSha r = true) (hdigest : isDigest d = true)
    (hfiles : ∀ p, p ∈ T ↔ p ∈ rendered (card artwork r d) r d ++ [(providerMetadata, metadata)])
    (hsmall : ∀ p ∈ T, p.2.length ≤ maxBytes) : Admissible artwork T r d := by
  -- each rendered file is in the tree, and the tree has one file of a name
  have hget : ∀ p ∈ rendered (card artwork r d) r d, Dict.get T p.1 = some p.2 := fun p hp =>
    (Dict.get_eq_some hnodup).mpr ((hfiles p).mpr (List.mem_append_left _ hp))
  rw [rendered] at hget
  simp only [List.forall_mem_cons] at hget
  obtain ⟨hreadme, himage, hsource, _⟩ := hget
  refine ⟨?_, hsha, hdigest, .inl ?_, ?_, ?_, hsmall⟩
  · rw [sameNames_iff]
    intro name
    have hkeys : Dict.keys T = T.map Prod.fst := rfl
    rw [hkeys, List.mem_map]
    constructor
    · rintro ⟨p, hp, rfl⟩
      exact List.mem_map_of_mem (f := Prod.fst) ((hfiles p).mp hp)
    · intro hname
      obtain ⟨p, hp, hkey⟩ := List.mem_map.mp (show name ∈ (rendered (card artwork r d) r d ++
        [(providerMetadata, metadata)]).map Prod.fst from hname)
      exact ⟨p, (hfiles p).mpr hp, hkey⟩
  · rw [hreadme, utf8_encoded (clean_card hsha hdigest artwork)]
  · rw [himage, utf8_encoded (ascii_dockerfile hdigest).clean]
  · rw [hsource, jsonBytes_binding hsha hdigest]

end read

/-- A tree that is rendered is admitted, whoever serves it and whenever. -/
theorem Admissible.admitted {W : World} {T : Tree} {parent r d : Str} {artwork : Artwork}
    (h : Admissible artwork T r d) (hW : W.Serves parent T) {metadata : Bytes}
    (hmeta : Dict.get T providerMetadata = some metadata) (s : State) :
    ∃ t, existingTargetAdmitted W artwork parent s = .ok metadata t := by
  have hscaffold : sameNames (Dict.keys T) [providerMetadata, readmeName] = false := by
    rw [Bool.eq_false_iff, ne_eq, sameNames_iff]
    intro hsame
    have hmem : dockerfileName ∈ Dict.keys T := (sameNames_iff.mp h.names _).mpr (by decide)
    exact absurd ((hsame _).mp hmem) (by decide)
  obtain ⟨hrecognised, _⟩ := (recognised_iff hW.nodup h.names).mpr h
  exact (existingTargetAdmitted_answers hW artwork hscaffold s metadata).mpr
    ⟨h.names, ⟨r, d, hrecognised⟩, hmeta, h.small _ ((Dict.get_eq_some hW.nodup).mp hmeta)⟩

/-- **What is admitted.**  Outside of the scaffold of a failed creation, a Space is written
over exactly where its tree is rendered, for a revision and an image that the tree determines;
what is kept is the tree's own metadata.  The card may also be the one before the artwork, and
every file has at most 131072 bytes. -/
theorem admitted_iff {W : World} {T : Tree} {parent : Str} (artwork : Artwork)
    (hW : W.Serves parent T)
    (hscaffold : sameNames (Dict.keys T) [providerMetadata, readmeName] = false)
    (s : State) (metadata : Bytes) :
    (∃ t, existingTargetAdmitted W artwork parent s = .ok metadata t) ↔
      Dict.get T providerMetadata = some metadata ∧
        ∃! bound : Str × Str, Admissible artwork T bound.1 bound.2 := by
  rw [existingTargetAdmitted_answers hW artwork hscaffold s metadata]
  constructor
  · rintro ⟨hnames, ⟨r, d, hrecognised⟩, hmeta, hsmall⟩
    have h := (recognised_iff hW.nodup hnames).mp ⟨hrecognised, metadata, hmeta, hsmall⟩
    refine ⟨hmeta, (r, d), h, ?_⟩
    rintro ⟨r', d'⟩ h'
    obtain ⟨rfl, rfl⟩ := h.unique h'
    rfl
  · rintro ⟨hmeta, ⟨r, d⟩, h, _⟩
    exact (existingTargetAdmitted_answers hW artwork hscaffold s metadata).mp
      (h.admitted hW hmeta s)

/-! ### A tree that is refused, and one that is admitted -/

/-- A Hub that holds one tree, and does nothing else. -/
def World.holding (T : Tree) : World where
  env _ _ := none
  git _ _ := .error .exit
  http _ _ := .error .exit
  nonce _ := []
  hub _ := .error .exit
  card _ _ := .error .exit
  repoInfo _ := .error .exit
  createRepo _ := .error .exit
  authCheck _ := .error .exit
  listRepoFiles _ _ := .ok (Dict.keys T)
  download _ _ name := match Dict.get T name with
    | none => .error .exit
    | some body => .ok body
  bootstrapBinding _ := .error .exit
  makeFolder _ := .error .exit
  writeFile _ _ _ := .error .exit
  removeFolder _ := .error .exit
  upload _ _ := .error .exit
  writeReceipt _ _ := .error .exit
  monotonic _ := 0
  sleep _ _ := .error .exit

theorem holding_serves {T : Tree} (hT : (Dict.keys T).Nodup) (revision : Str) :
    (World.holding T).Serves revision T := by
  refine ⟨hT, fun _ => rfl, fun n p hp => ?_⟩
  show (match Dict.get T p.1 with
    | none => _
    | some body => _) = _
  rw [(Dict.get_eq_some hT).mpr hp]

def sampleArtwork : Artwork := ⟨lit "\n<p></p>\n", clean_of_ascii (by decide)⟩
def sampleRevision : Str := List.replicate 40 (chr 'a')

/-- A Space with the right names and nothing in its files. -/
def sampleTree : Tree :=
  [(readmeName, []), (dockerfileName, []), (sourceBindingFilename, []), (providerMetadata, [])]

def sampleDigest : Str := lit "sha256:" ++ List.replicate 64 (chr 'b')

/-- A Space as the publisher leaves it. -/
def renderedTree : Tree :=
  rendered (card sampleArtwork sampleRevision sampleDigest) sampleRevision sampleDigest ++
    [(providerMetadata, [7])]

theorem renderedTree_admissible :
    Admissible sampleArtwork renderedTree sampleRevision sampleDigest :=
  admissible_of_files (by decide) (by decide +kernel) (by decide +kernel) (fun _ => Iff.rfl)
    (by decide +kernel)

/-- The first tree is refused, and the second is admitted. -/
theorem sampleTree_refused :
    (¬ ∃ t, existingTargetAdmitted (World.holding sampleTree) sampleArtwork sampleRevision
      State.start = .ok [] t) ∧
    ∃ t, existingTargetAdmitted (World.holding renderedTree) sampleArtwork sampleRevision
      State.start = .ok [7] t := by
  constructor
  · rw [admitted_iff sampleArtwork (holding_serves (by decide) sampleRevision) (by decide)
      State.start []]
    rintro ⟨_, ⟨r, d⟩, h, _⟩
    have hempty : Dict.get sampleTree sourceBindingFilename = some [] := by decide
    have hrendered := jsonBytes_binding h.exactSha h.exactDigest
    have hread := readBinding_rendered h.exactSha h.exactDigest
    rw [← h.source, hempty] at hrendered
    rw [← Option.some.inj hrendered] at hread
    cases hread
  · rw [admitted_iff sampleArtwork (holding_serves (by decide) sampleRevision) (by decide)
      State.start [7]]
    refine ⟨by decide, (sampleRevision, sampleDigest), renderedTree_admissible, ?_⟩
    rintro ⟨r, d⟩ h
    obtain ⟨rfl, rfl⟩ := h.unique renderedTree_admissible
    rfl

end ControlSpace

end SzlRouter
