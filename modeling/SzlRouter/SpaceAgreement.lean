/-
Publisher and verifier of the status Space.

The publisher admits a snapshot and stages a tree; `Serves` says that the Space
then answers with exactly this tree.  The verifier bounds what it reads and the
publisher does not bound what it writes, so the two agree within the verifier's
bounds only.

* `SafeParts.unsafeTreePath` — no path that the publisher admits is rejected;
* `Serves.returns` — within the bounds the check returns;
* `publication_verifiable_iff` — it returns exactly there.
-/
import SzlRouter.SpaceAcceptance

namespace SzlRouter

namespace Drift

open Py Procedure
open EStateM (Result)

/-! ### Paths -/

/-- The path rules that publisher and verifier share. -/
structure SafeParts (path : Str) : Prop where
  nonempty : path ≠ []
  parts : ∀ part ∈ Str.split (chr '/') path, part ∉ [[], lit ".", lit ".."]
  chars : ∀ c ∈ path, c ≠ chr '\\' ∧ c ≠ chr ':' ∧ isControl c = false

theorem SafeParts.of_safeSourcePath {path : Str} (h : safeSourcePath path = true) :
    SafeParts path := by
  obtain ⟨hne, hparts, hchars, hcontrol, _⟩ := of_decide_eq_true h
  refine ⟨hne, ?_, ?_⟩
  · intro part hpart hmem
    refine of_decide_eq_true (List.all_eq_true.mp hparts part hpart) ?_
    revert hmem
    simp only [List.mem_cons, List.not_mem_nil, or_false]
    rintro (h | h | h) <;> simp [h]
  · intro c hc
    have hlit : c ∉ lit "\\:\x00\r\n" := of_decide_eq_true (List.all_eq_true.mp hchars c hc)
    refine ⟨?_, ?_, by simpa using List.all_eq_true.mp hcontrol c hc⟩
    · rintro rfl
      exact hlit (by decide)
    · rintro rfl
      exact hlit (by decide)

/-- A directory above a safe path is safe. -/
theorem SafeParts.ancestor {path d : Str} (h : SafeParts path) (hd : d ∈ ancestors path) :
    SafeParts d := by
  obtain ⟨rest, rfl⟩ := mem_ancestors.mp hd
  have hsplit := Str.split_append (chr '/') d rest
  refine ⟨?_, ?_, ?_⟩
  · rintro rfl
    refine h.parts [] ?_ (by simp)
    rw [hsplit]
    exact List.mem_cons_self
  · intro part hpart
    exact h.parts part (hsplit ▸ List.mem_append_left _ hpart)
  · intro c hc
    exact h.chars c (List.mem_append_left _ hc)

theorem SafeParts.unsafeTreePath {path : Str} (h : SafeParts path) :
    unsafeTreePath path = false := by
  refine decide_eq_false ?_
  rintro (hnil | hroot | hback | hcolon | hcontrol | hparts)
  · exact h.nonempty hnil
  · obtain ⟨rest, hrest⟩ := List.isPrefixOf_iff_prefix.mp hroot
    refine h.parts [] ?_ (by simp)
    rw [← hrest]
    show [] ∈ Str.split (chr '/') (chr '/' :: rest)
    rw [Str.split_cons_self]
    exact List.mem_cons_self
  · exact (h.chars _ hback).1 rfl
  · exact (h.chars _ hcolon).2.1 rfl
  · obtain ⟨c, hc, hcontrol⟩ := List.any_eq_true.mp hcontrol
    rw [(h.chars c hc).2.2] at hcontrol
    exact nomatch hcontrol
  · obtain ⟨part, hpart, hbad⟩ := List.any_eq_true.mp hparts
    exact h.parts part hpart (of_decide_eq_true hbad)

theorem safeParts_binding : SafeParts sourceBindingFilename :=
  .of_safeSourcePath (by decide)

theorem safeParts_keys {snapshot : Snapshot} (h : Admitted snapshot) {body : Bytes} {path : Str}
    (hpath : path ∈ Dict.keys (snapshot ++ [(sourceBindingFilename, body)])) : SafeParts path := by
  rw [Dict.keys, List.map_append, List.mem_append] at hpath
  rcases hpath with hpath | hpath
  · exact .of_safeSourcePath (h.safe path hpath)
  · rw [List.mem_singleton.mp hpath]
    exact safeParts_binding

/-! ### A Space that serves a tree -/

/-- An entry of the listing shows a file or a directory. -/
def Shown (entry : Json) (shown : Bool × Str) : Prop :=
  ∃ d, entry = .obj d ∧
    field d (lit "type") = .str (if shown.1 then lit "directory" else lit "file") ∧
    field d (lit "path") = .str shown.2

/-- What the tree has to show. -/
def shownTree (t : Tree) : List (Bool × Str) :=
  (Dict.keys t.files).map (false, ·) ++ t.dirs.map (true, ·)

/-- Whenever it is asked, the Space answers with exactly this tree at the revision: the listing
of its files and directories in some order, and the bytes of each file. -/
structure Serves (W : World) (cfg : Config) (hfRevision : Str) (tree : Tree) (listing : Bytes) :
    Prop where
  listed : ∀ n g, g.url = treeUrl cfg.repoId hfRevision → ∃ contentType headers,
    W.answer n g = .response 200 g.url contentType headers listing ∧
      mediaType contentType = lit "application/json"
  entries : ∃ text entries shown, decodeUtf8 listing = some text ∧ W.limitError text = none ∧
    loads plainLoads text = some (.arr entries) ∧
    List.Forall₂ Shown entries shown ∧ shown.Perm (shownTree tree)
  files : ∀ p ∈ tree.files, ∀ n g, g.url = resolveUrl cfg.repoId hfRevision p.1 →
    ∃ finalUrl contentType headers, W.answer n g = .response 200 finalUrl contentType headers p.2

/-- The deadline was reached before the check was through. It is asked before every request, so a
check may end there at any of them. -/
def Late (W : World) (deadline : Binary64) (e : Stop) (_ : State) : Prop :=
  e = .failure timedOut ∧ ∃ n c, deadline.sub (W.elapse n c) ≤ 0

variable {W : World} {cfg : Config} {deadline : Binary64} {s t : State} {hfRevision : Str}
  {tree : Tree} {listing : Bytes}

theorem readAnswer_of_size {x : Read} {finalUrl contentType : Str} {headers : List (Str × Str)}
    {body : Bytes} (ha : x.answer = .response 200 finalUrl contentType headers body)
    (hurl : x.get.redirects = true ∨ finalUrl = x.get.url)
    (hsize : body.length ≤ maxResponseBytes) :
    ∃ response, readAnswer x = .ok response ∧ response.body = body ∧
      response.contentType = contentType := by
  refine ⟨⟨body, 200, contentType, Dict.update [] (headers.map fun h => (Str.lower h.1, h.2))⟩, ?_,
    rfl, rfl⟩
  rw [readAnswer, ha]
  dsimp only
  rw [if_neg (by simp), if_neg ?_, if_neg (by omega)]
  rcases hurl with hurl | hurl <;> simp [hurl]

theorem size_of_readAnswer {x : Read} {response : Response} {status : ℤ}
    {finalUrl contentType : Str} {headers : List (Str × Str)} {body : Bytes}
    (ha : x.answer = .response status finalUrl contentType headers body)
    (h : readAnswer x = .ok response) : response.body = body ∧ body.length ≤ maxResponseBytes := by
  rw [readAnswer, ha] at h
  dsimp only at h
  split_ifs at h with hstatus hurl hsize
  rw [← Except.ok.inj h]
  exact ⟨rfl, by omega⟩

/-! ### The calls return within the bounds -/

theorem fetch_returns {P : Response → Prop} {url : Str} {authenticate redirects : Bool}
    (h : ∀ x : Read, x.get.url = url → x.get.redirects = redirects → Answered W x →
      ∃ response, readAnswer x = .ok response ∧ P response) :
    Ensures (fetch W cfg deadline url authenticate redirects) s (fun response _ => P response)
      (Late W deadline) := by
  rw [fetch]
  have htimeout :
      Ensures (timeoutForCall W cfg deadline) s (fun _ _ => True) (Late W deadline) := by
    show Ensures (if deadline.sub (s.tickClock W).clock ≤ 0 then _ else _) (s.tickClock W) _ _
    split_ifs with hlate
    · exact Ensures.throw ⟨rfl, _, _, hlate⟩
    · exact Ensures.pure trivial
  refine htimeout.bind fun timeout u _ => ?_
  obtain ⟨response, hread, hP⟩ := h (u.read W cfg url timeout authenticate redirects) rfl rfl
    ⟨u.moment, rfl⟩
  rw [Ensures, request, hread]
  exact hP

theorem orFail_returns {α : Type} {x : Except VerificationFailure α} {a : α} (h : x = .ok a) :
    Ensures (orFail x) s (fun b _ => b = a) (Late W deadline) := by
  rw [h]
  exact Ensures.pure rfl

theorem orStop_returns {α : Type} {x : Except Stop α} {a : α} (h : x = .ok a) :
    Ensures (orStop x) s (fun b _ => b = a) (Late W deadline) := by
  rw [h]
  exact Ensures.pure rfl

/-- A text that meets no limit is read as it parses. -/
theorem loadsBody_returns {malformed : VerificationFailure} {body : Bytes} {text : Str} {v : Json}
    (htext : decodeUtf8 body = some text) (hlimit : W.limitError text = none)
    (hv : loads plainLoads text = some v) : loadsBody W.limitError malformed body = .ok v := by
  rw [loadsBody, htext]
  dsimp only
  rw [hlimit]
  dsimp only
  rw [hv]

theorem record_returns (f : Evidence → Evidence) :
    Ensures (record f) s (fun _ _ => True) (Late W deadline) :=
  trivial

theorem getJsonArray_returns (hserves : Serves W cfg hfRevision tree listing)
    (hsize : listing.length ≤ maxResponseBytes) {text : Str} {entries : List Json}
    (htext : decodeUtf8 listing = some text) (hlimit : W.limitError text = none)
    (hentries : loads plainLoads text = some (.arr entries)) :
    Ensures (getJsonArray W cfg deadline (treeUrl cfg.repoId hfRevision)) s
      (fun xs _ => xs = entries) (Late W deadline) := by
  rw [getJsonArray]
  refine Ensures.bind (Q := fun response _ => arrayRoot W.limitError response = .ok entries)
    ?_ ?_
  · refine fetch_returns fun x hurl _ hanswered => ?_
    obtain ⟨n, hn⟩ := hanswered
    obtain ⟨contentType, headers, hanswer, htype⟩ := hserves.listed n x.get hurl
    obtain ⟨response, hread, hbody, hcontent⟩ :=
      readAnswer_of_size (hn.trans hanswer) (.inr rfl) hsize
    refine ⟨response, hread, ?_⟩
    have hjson : isJsonType response.contentType = true := by simp [isJsonType, hcontent, htype]
    rw [arrayRoot, decodeJson, if_neg (by simp [hjson]), hbody,
      loadsBody_returns htext hlimit hentries]
  · intro response u hroot
    exact orStop_returns hroot

theorem getBytes_returns (hserves : Serves W cfg hfRevision tree listing)
    {p : Str × Bytes} (hp : p ∈ tree.files) (hsize : p.2.length ≤ maxResponseBytes) :
    Ensures (getBytes W cfg deadline (resolveUrl cfg.repoId hfRevision p.1)) s
      (fun body _ => body = p.2) (Late W deadline) := by
  rw [getBytes]
  refine Ensures.bind (Q := fun response _ => response.body = p.2) ?_ ?_
  · refine fetch_returns fun x hurl hredirects hanswered => ?_
    obtain ⟨n, hn⟩ := hanswered
    obtain ⟨finalUrl, contentType, headers, hanswer⟩ := hserves.files p hp n x.get hurl
    obtain ⟨response, hread, hbody, _⟩ :=
      readAnswer_of_size (hn.trans hanswer) (.inl hredirects) hsize
    exact ⟨response, hread, hbody⟩
  · intro response u hbody
    exact Ensures.pure hbody

/-! ### The listing -/

theorem mapM_readEntry {entries : List Json} {shown : List (Bool × Str)}
    (h : List.Forall₂ Shown entries shown) (hsafe : ∀ p ∈ shown, SafeParts p.2) :
    entries.mapM readEntry = .ok shown := by
  induction h with
  | nil => rfl
  | @cons entry p entries shown hentry _ ih =>
    obtain ⟨hp, hrest⟩ := List.forall_mem_cons.mp hsafe
    obtain ⟨d, rfl, htype, hpath⟩ := hentry
    have hread : readEntry (.obj d) = .ok p := by
      obtain ⟨isDir, path⟩ := p
      rw [readEntry, htype, hpath]
      cases isDir
      · dsimp only
        rw [if_neg (by simp), hp.unsafeTreePath]
        rfl
      · dsimp only
        rw [if_neg (by simp), hp.unsafeTreePath]
        rfl
    rw [List.mapM_cons, hread, ih hrest]
    rfl

theorem shownTree_files (t : Tree) :
    ((shownTree t).filter fun e => !e.1).map Prod.snd = Dict.keys t.files := by
  simp [shownTree, List.filter_map, Function.comp_def]

theorem shownTree_dirs (t : Tree) : ((shownTree t).filter fun e => e.1).map Prod.snd = t.dirs := by
  simp [shownTree, List.filter_map, Function.comp_def]

/-- The listing of a staged tree is read as its files and its directories. -/
theorem readTree_shown {entries : List Json} {shown : List (Bool × Str)} {ws : Snapshot}
    (htree : tree.Holds ws) (hnodup : (Dict.keys ws).Nodup)
    (hsafe : ∀ path ∈ Dict.keys ws, SafeParts path)
    (hshown : List.Forall₂ Shown entries shown) (hperm : shown.Perm (shownTree tree))
    (hcount : tree.files.length + tree.dirs.length < maxTreeEntries) :
    ∃ files dirs, readTree entries = .ok (files, dirs) ∧ files.Perm (Dict.keys ws) ∧
      dirs.Perm tree.dirs := by
  -- the listing in any order shows the same files and directories
  have hfiles : ((shown.filter fun e => !e.1).map Prod.snd).Perm (Dict.keys ws) := by
    have := (hperm.filter fun e => !e.1).map Prod.snd
    rwa [shownTree_files, htree.files] at this
  have hdirs : ((shown.filter fun e => e.1).map Prod.snd).Perm tree.dirs := by
    have := (hperm.filter fun e => e.1).map Prod.snd
    rwa [shownTree_dirs] at this
  have hlength : entries.length = tree.files.length + tree.dirs.length := by
    rw [hshown.length_eq, hperm.length_eq, shownTree, List.length_append, List.length_map,
      List.length_map, Dict.keys, List.length_map]
  -- a directory of a safe path is safe
  have hpaths : ∀ p ∈ shown, SafeParts p.2 := by
    intro p hp
    have hmem := hperm.mem_iff.mp hp
    rw [shownTree, List.mem_append, List.mem_map, List.mem_map, htree.files] at hmem
    rcases hmem with ⟨path, hpath, rfl⟩ | ⟨d, hd, rfl⟩
    · exact hsafe path hpath
    · obtain ⟨path, hpath, hd⟩ := (htree.dirs d).mp hd
      exact (hsafe path hpath).ancestor hd
  refine ⟨_, _, ?_, hfiles, hdirs⟩
  rw [readTree, if_neg (by omega), mapM_readEntry hshown hpaths]
  dsimp only
  rw [if_neg]
  rw [not_not]
  -- no path is listed twice: files are distinct, directories too, and no file is a directory
  refine ((hfiles.append hdirs).nodup_iff).mpr
    (List.nodup_append.mpr ⟨hnodup, htree.nodup_dirs, ?_⟩)
  rintro path hpath d hd rfl
  exact htree.apart path hpath hd

/-! ### The check returns within the bounds -/

/-- The bounds of the verifier on what the Space serves: on the length of the listing and of each
file, and on the number of entries. -/
structure WithinBounds (tree : Tree) (listing : Bytes) : Prop where
  listing : listing.length ≤ maxResponseBytes
  count : tree.files.length + tree.dirs.length < maxTreeEntries
  sizes : ∀ p ∈ tree.files, p.2.length ≤ maxResponseBytes

theorem verifyOutputSet_returns {ws : Snapshot} {expected : List Str}
    (hserves : Serves W cfg hfRevision tree listing) (hsize : listing.length ≤ maxResponseBytes)
    (hcount : tree.files.length + tree.dirs.length < maxTreeEntries) (htree : tree.Holds ws)
    (hnodup : (Dict.keys ws).Nodup)
    (hsafe : ∀ path ∈ Dict.keys ws, SafeParts path)
    (hexpected : ∀ path, path ∈ Dict.keys ws ↔ path ∈ expected) :
    Ensures (verifyOutputSet W cfg deadline hfRevision expected) s (fun _ _ => True)
      (Late W deadline) := by
  obtain ⟨text, entries, shown, htext, hlimit, hentries, hshown, hperm⟩ := hserves.entries
  obtain ⟨files, dirs, hread, hfiles, hdirs⟩ :=
    readTree_shown htree hnodup hsafe hshown hperm hcount
  have hmissing : missingPaths expected files = [] := by
    refine List.eq_nil_iff_forall_not_mem.mpr fun path hpath => ?_
    obtain ⟨hmem, hnot⟩ := mem_missingPaths.mp hpath
    exact hnot (hfiles.mem_iff.mpr ((hexpected path).mpr hmem))
  have hunexpected : unexpectedPaths expected files = [] := by
    refine List.eq_nil_iff_forall_not_mem.mpr fun path hpath => ?_
    obtain ⟨hmem, hnot⟩ := mem_unexpectedPaths.mp hpath
    exact hnot ((hexpected path).mp (hfiles.mem_iff.mp hmem))
  -- every directory that is listed is on the way to a file that is expected
  have hdirectories : unexpectedDirectories expected dirs = [] := by
    refine List.eq_nil_iff_forall_not_mem.mpr fun d hd => ?_
    obtain ⟨hmem, hnone⟩ := mem_unexpectedDirectories.mp hd
    obtain ⟨path, hpath, hancestor⟩ := (htree.dirs d).mp (hdirs.mem_iff.mp hmem)
    obtain ⟨rest, rfl⟩ := mem_ancestors.mp hancestor
    have hstart : Str.startsWith (d ++ chr '/' :: rest) (d ++ lit "/") = true :=
      List.isPrefixOf_iff_prefix.mpr ⟨rest, by simp [lit]⟩
    rw [hnone _ ((hexpected _).mp hpath)] at hstart
    exact nomatch hstart
  rw [verifyOutputSet]
  refine (getJsonArray_returns hserves hsize htext hlimit hentries).bind ?_
  rintro _ u rfl
  refine (orFail_returns hread).bind ?_
  rintro _ v rfl
  refine (record_returns _).bind fun _ w _ => ?_
  rw [hmissing, hunexpected, hdirectories, if_neg (by simp)]
  trivial

theorem verifyFiles_returns {snapshot : Snapshot}
    (hserves : Serves W cfg hfRevision tree listing)
    (hmem : ∀ p ∈ snapshot, p ∈ tree.files ∧ p.2.length ≤ maxResponseBytes) :
    Ensures (verifyFiles W cfg deadline hfRevision snapshot) s (fun _ _ => True)
      (Late W deadline) := by
  induction snapshot generalizing s with
  | nil => trivial
  | cons p rest ih =>
    obtain ⟨⟨hp, hsize⟩, hrest⟩ := List.forall_mem_cons.mp hmem
    rw [verifyFiles]
    refine (getBytes_returns hserves hp hsize).bind ?_
    rintro _ u rfl
    refine (record_returns _).bind fun _ v _ => ?_
    rw [if_neg (by simp)]
    exact ih hrest

/-- A binding is an object of texts. -/
theorem scalar_sourceBinding {repository revision : Str} {b : Dict}
    (h : sourceBinding repository revision = some b) : ∀ p ∈ b, Scalar p.2 := by
  rw [sourceBinding] at h
  split_ifs at h
  rw [← Option.some.inj h]
  simp only [List.forall_mem_cons]
  exact ⟨trivial, trivial, trivial, trivial, trivial, trivial, trivial, trivial,
    fun p hp => absurd hp List.not_mem_nil⟩

theorem sameMembers_sortByKey {d : Dict} (h : (Dict.keys d).Nodup) :
    sameMembers (sortByKey d) d = true := by
  refine decide_eq_true ⟨(sortByKey_perm d).length_eq, List.all_eq_true.mpr ?_⟩
  intro p hp
  refine decide_eq_true ?_
  rw [Dict.get_sortByKey h, Dict.get_eq_some h]
  exact hp

theorem verifyBinding_returns {binding : Dict} {body : Bytes}
    (hserves : Serves W cfg hfRevision tree listing)
    (hbinding : sourceBinding sourceRepository cfg.sourceRevision = some binding)
    (hbody : jsonBytes binding = some body) (hmem : (sourceBindingFilename, body) ∈ tree.files)
    (hsize : body.length ≤ maxResponseBytes) :
    Ensures (verifyBinding W cfg deadline hfRevision) s (fun _ _ => True) (Late W deadline) := by
  obtain ⟨hnodup, _, hloads⟩ := loads_sourceBinding plainLoads rfl hbinding hbody
  have hdocument : jsonDocument W.limitError body = .ok (sortByKey binding) := by
    -- the binding is an object of texts, so no limit is met in its bytes
    obtain ⟨written, hwritten, hbytes⟩ := Option.bind_eq_some_iff.mp hbody
    have htext := decodeUtf8_utf8 hbytes
    have hlimit := W.limitError_flat _ _ (scalar_sourceBinding hbinding) hwritten
    rw [htext] at hloads
    rw [jsonDocument, loadsBody_returns htext hlimit hloads]
  rw [verifyBinding]
  refine (getBytes_returns hserves hmem hsize).bind ?_
  rintro _ u rfl
  refine (orStop_returns hdocument).bind ?_
  rintro _ v rfl
  rw [hbinding]
  dsimp only
  rw [if_neg (by simp [sameMembers_sortByKey hnodup, hbody])]
  trivial

/-- The binding depends on the stripped repository. -/
theorem sourceBinding_of_strip {repository revision : Str}
    (h : Str.strip repository = sourceRepository) :
    sourceBinding repository revision = sourceBinding sourceRepository revision := by
  have hstrip : Str.strip sourceRepository = sourceRepository := by decide
  rw [sourceBinding, sourceBinding, h, hstrip]

/-! ### Agreement -/

/-- What the publisher has staged: an admitted snapshot with its binding. -/
structure Staged (cfg : Config) (repository : Str) (snapshot : Snapshot) (tree : Tree) : Prop where
  admitted : ∃ checkout, sourceSnapshot checkout cfg.sourceRevision = .ok snapshot
  release : ∃ binding expected, sourceBinding repository cfg.sourceRevision = some binding ∧
    stageRelease snapshot binding = .ok (expected, tree)

theorem Staged.spec {repository : Str} {snapshot : Snapshot}
    (h : Staged cfg repository snapshot tree) :
    ∃ binding body, Admitted snapshot ∧
      sourceBinding repository cfg.sourceRevision = some binding ∧ jsonBytes binding = some body ∧
      (Dict.keys (snapshot ++ [(sourceBindingFilename, body)])).Nodup ∧
      tree.Holds (sortByKey (snapshot ++ [(sourceBindingFilename, body)])) := by
  obtain ⟨checkout, hsource⟩ := h.admitted
  obtain ⟨binding, expected, hbinding, hstage⟩ := h.release
  have hadmitted := sourceSnapshot_spec hsource
  obtain ⟨body, hbody, rfl, hnodup, htree⟩ := stageRelease_spec hadmitted hstage
  exact ⟨binding, body, hadmitted, hbinding, hbody, hnodup, htree⟩

variable {repository : Str} {snapshot : Snapshot}

theorem takeSnapshot_returns
    (hcheckout : ∀ n, sourceSnapshot (W.checkout n) cfg.sourceRevision = .ok snapshot) :
    Ensures (takeSnapshot W cfg) s (fun found _ => found = snapshot) (Late W deadline) := by
  have hask : Ensures (ask W.checkout) s (fun checkout _ => ∃ n, checkout = W.checkout n)
      (Late W deadline) := ⟨s.moment, rfl⟩
  rw [takeSnapshot]
  refine hask.bind ?_
  rintro checkout t ⟨n, rfl⟩
  rw [hcheckout]
  exact Ensures.pure rfl

theorem mem_files_of_holds {body : Bytes}
    (htree : tree.Holds (sortByKey (snapshot ++ [(sourceBindingFilename, body)])))
    (p : Str × Bytes) :
    p ∈ tree.files ↔ p ∈ snapshot ++ [(sourceBindingFilename, body)] := by
  rw [htree.files]
  exact (sortByKey_perm _).mem_iff

/-- The tree of an admitted snapshot with its binding is the expected set. -/
theorem outputSet_returns {body : Bytes} (hserves : Serves W cfg hfRevision tree listing)
    (hadmitted : Admitted snapshot)
    (hnodup : (Dict.keys (snapshot ++ [(sourceBindingFilename, body)])).Nodup)
    (htree : tree.Holds (sortByKey (snapshot ++ [(sourceBindingFilename, body)])))
    (hsize : listing.length ≤ maxResponseBytes)
    (hcount : tree.files.length + tree.dirs.length < maxTreeEntries) :
    Ensures (verifyOutputSet W cfg deadline hfRevision
      (Dict.keys snapshot ++ [sourceBindingFilename])) s (fun _ _ => True) (Late W deadline) := by
  have hkeys : (Dict.keys (sortByKey (snapshot ++ [(sourceBindingFilename, body)]))).Perm
      (Dict.keys (snapshot ++ [(sourceBindingFilename, body)])) := keys_sortByKey_perm _
  refine verifyOutputSet_returns hserves hsize hcount htree (hkeys.nodup_iff.mpr hnodup)
    (fun path hpath => safeParts_keys hadmitted (hkeys.mem_iff.mp hpath)) ?_
  intro path
  rw [hkeys.mem_iff, Dict.keys, List.map_append]
  rfl

/-- Within the bounds, and for its own repository, the verifier's check returns. The Space serves
the tree that was staged, so every comparison is one of a value with itself; only the deadline
can come in between. -/
theorem Serves.returns (hstaged : Staged cfg repository snapshot tree)
    (hserves : Serves W cfg hfRevision tree listing)
    (hcheckout : ∀ n, sourceSnapshot (W.checkout n) cfg.sourceRevision = .ok snapshot)
    (hbounds : WithinBounds tree listing)
    (hrepository : Str.strip repository = sourceRepository) :
    Ensures (verifySourcePublication W cfg deadline hfRevision) s (fun _ _ => True)
      (Late W deadline) := by
  obtain ⟨binding, body, hadmitted, hbinding, hbody, hnodup, htree⟩ := hstaged.spec
  rw [sourceBinding_of_strip hrepository] at hbinding
  have hfiles := mem_files_of_holds htree
  rw [verifySourcePublication]
  -- snapshot, record, output set, files, binding; each returns, or the time is up
  refine (takeSnapshot_returns hcheckout).bind ?_
  rintro _ u rfl
  refine (record_returns _).bind fun _ v _ => ?_
  refine (outputSet_returns hserves hadmitted hnodup htree hbounds.listing hbounds.count).bind
    fun _ w _ => ?_
  refine (verifyFiles_returns hserves ?_).bind fun _ x _ => ?_
  · intro p hp
    have hmem := (hfiles p).mpr (List.mem_append_left _ hp)
    exact ⟨hmem, hbounds.sizes p hmem⟩
  · have hmem := (hfiles (sourceBindingFilename, body)).mpr (by simp)
    exact verifyBinding_returns hserves hbinding hbody hmem (hbounds.sizes _ hmem)

theorem exists_of_forall₂ {α β : Type} {R : α → β → Prop} {as : List α} {bs : List β}
    (h : List.Forall₂ R as bs) {a : α} (ha : a ∈ as) : ∃ b ∈ bs, R a b := by
  induction h with
  | nil => exact absurd ha List.not_mem_nil
  | cons hab _ ih =>
    rcases List.mem_cons.mp ha with rfl | ha
    · exact ⟨_, List.mem_cons_self, hab⟩
    · obtain ⟨b, hb, hR⟩ := ih ha
      exact ⟨b, List.mem_cons_of_mem _ hb, hR⟩

/-- A file that was read is served, and within the bound. -/
theorem bytes_of_served {x : Read} {p : Str × Bytes} {remote : Bytes}
    (hserves : Serves W cfg hfRevision tree listing) (hp : p ∈ tree.files)
    (hurl : x.get.url = resolveUrl cfg.repoId hfRevision p.1) (hanswered : Answered W x)
    (h : x.Bytes remote) : remote = p.2 ∧ p.2.length ≤ maxResponseBytes := by
  obtain ⟨response, hread, rfl⟩ := h
  obtain ⟨n, hn⟩ := hanswered
  obtain ⟨finalUrl, contentType, headers, hserved⟩ := hserves.files p hp n x.get hurl
  exact size_of_readAnswer (hn.trans hserved) hread

/-- The listing that was read is within the bounds. -/
theorem listing_of_served {x : Read} {expected : List Str}
    (hserves : Serves W cfg hfRevision tree listing) (hanswered : Answered W x)
    (h : ShowsTree cfg hfRevision expected x) :
    listing.length ≤ maxResponseBytes ∧ tree.files.length + tree.dirs.length < maxTreeEntries := by
  obtain ⟨hurl, found, files, dirs, ⟨response, hread, harray⟩, htree, _⟩ := h
  obtain ⟨text, entries, shown, htext, _, hentries, hshown, hperm⟩ := hserves.entries
  obtain ⟨n, hn⟩ := hanswered
  obtain ⟨contentType, headers, hserved, htype⟩ := hserves.listed n x.get hurl
  obtain ⟨hbody, hsize⟩ := size_of_readAnswer (hn.trans hserved) hread
  refine ⟨hsize, ?_⟩
  have hcount : found.length < maxTreeEntries := by
    rw [readTree] at htree
    by_contra hlimit
    rw [if_pos (by omega)] at htree
    exact nomatch htree
  -- what was read is the listing that was served
  have hsame : found = entries := by
    rw [Response.json] at harray
    split_ifs at harray
    rw [hbody, htext, Option.bind_some, hentries] at harray
    exact (Json.arr.inj (Option.some.inj harray)).symm
  rw [hsame, hshown.length_eq, hperm.length_eq, shownTree, List.length_append, List.length_map,
    List.length_map, Dict.keys, List.length_map] at hcount
  exact hcount

/-- Where the check returns, the bounds hold and the binding is of the verifier's
repository. -/
theorem Serves.of_returned (hstaged : Staged cfg repository snapshot tree)
    (hserves : Serves W cfg hfRevision tree listing)
    (hcheckout : ∀ n, sourceSnapshot (W.checkout n) cfg.sourceRevision = .ok snapshot)
    (h : verifySourcePublication W cfg deadline hfRevision s = .ok () t) :
    WithinBounds tree listing ∧ Str.strip repository = sourceRepository := by
  obtain ⟨b, body, hadmitted, hb, hbody, hnodup, htree⟩ := hstaged.spec
  obtain ⟨found, n, listed, files, binding, hreads, hfound, hshows, hfiles, hbinding⟩ :=
    verifySourcePublication_ok h
  obtain rfl : snapshot = found := Except.ok.inj ((hcheckout n).symm.trans hfound)
  have hmem := mem_files_of_holds htree
  obtain ⟨new, hnew, hanswered, _⟩ :=
    (attempted_verifySourcePublication.of_ok h).reads
  rw [List.append_assoc] at hreads
  -- the reads of the attempt are those of its publication, and each of them was answered
  obtain rfl : new = listed :: files ++ [binding] :=
    List.append_cancel_left (hnew.symm.trans hreads)
  obtain ⟨hlisting, hcount⟩ := listing_of_served hserves (hanswered listed (by simp)) hshows
  obtain ⟨hurl, expected, remote, hexpected, hremote, hbytes⟩ := hbinding
  have hstagedBinding := (hmem (sourceBindingFilename, body)).mpr (by simp)
  obtain ⟨rfl, hbindingSize⟩ :=
    bytes_of_served hserves hstagedBinding hurl (hanswered binding (by simp)) hbytes
  refine ⟨⟨hlisting, hcount, ?_⟩, ?_⟩
  · intro p hp
    rcases List.mem_append.mp ((hmem p).mp hp) with hp' | hp'
    · obtain ⟨x, hx, hfileUrl, _, hfileBytes, _⟩ := exists_of_forall₂ hfiles hp'
      exact (bytes_of_served hserves hp hfileUrl (hanswered x (by simp [hx])) hfileBytes).2
    · rw [List.mem_singleton.mp hp']
      exact hbindingSize
  · obtain ⟨hb', hfield, hloads⟩ := loads_sourceBinding plainLoads rfl hb hbody
    obtain ⟨hexpected', hfield', hloads'⟩ := loads_sourceBinding plainLoads rfl hexpected hremote
    -- two bindings with the same bytes have the same members, so the same repository
    have hsorted : sortByKey b = sortByKey expected := by
      rw [hloads] at hloads'
      exact Json.obj.inj (Option.some.inj hloads')
    rw [field, ← Dict.get_sortByKey hb', hsorted, Dict.get_sortByKey hexpected', ← field,
      hfield'] at hfield
    rw [← Json.str.inj hfield]
    decide

/-- A faithful publication passes the check, unless the time is up, exactly when it is
within the verifier's bounds and of its repository. -/
theorem publication_verifiable_iff (hstaged : Staged cfg repository snapshot tree)
    (hserves : Serves W cfg hfRevision tree listing)
    (hcheckout : ∀ n, sourceSnapshot (W.checkout n) cfg.sourceRevision = .ok snapshot)
    (htime : ∀ t, verifySourcePublication W cfg deadline hfRevision s ≠
      .error (.failure timedOut) t) :
    (∃ t, verifySourcePublication W cfg deadline hfRevision s = .ok () t) ↔
      WithinBounds tree listing ∧ Str.strip repository = sourceRepository := by
  constructor
  · rintro ⟨t, h⟩
    exact hserves.of_returned hstaged hcheckout h
  · rintro ⟨hbounds, hrepository⟩
    have hreturns : Ensures (verifySourcePublication W cfg deadline hfRevision) s
        (fun _ _ => True) (Late W deadline) := hserves.returns hstaged hcheckout hbounds hrepository
    cases h : verifySourcePublication W cfg deadline hfRevision s with
    | ok _ t => exact ⟨t, rfl⟩
    | error e t =>
      obtain ⟨hlate, _⟩ := hreturns.of_error h
      exact absurd (hlate ▸ h) (htime t)

/-! ### Releases at and above the bound -/

/-- An infinite deadline is not reached. -/
theorem not_late_inf {W : World} {e : Stop} {u : State} : ¬ Late W (.inf false) e u := by
  rintro ⟨_, n, c, h⟩
  generalize W.elapse n c = x at h
  have hnan : ¬ Binary64.nan ≤ 0 := by decide
  have hinf : ¬ Binary64.inf false ≤ 0 := by decide +kernel
  cases x with
  | nan => exact hnan h
  | inf neg => cases neg with
    | true => exact hinf h
    | false => exact hnan h
  | fin neg mag => exact hinf h

/-- A served file above the bound ends the check. -/
theorem getBytes_too_large (hserves : Serves W cfg hfRevision tree listing) {p : Str × Bytes}
    (hp : p ∈ tree.files) (hsize : maxResponseBytes < p.2.length) :
    Ensures (getBytes W cfg deadline (resolveUrl cfg.repoId hfRevision p.1)) s (fun _ _ => False)
      (fun e u => e = .failure responseTooLarge ∨ Late W deadline e u) := by
  rw [getBytes, fetch]
  have htimeout : Ensures (timeoutForCall W cfg deadline) s (fun _ _ => True)
      (fun e u => e = .failure responseTooLarge ∨ Late W deadline e u) := by
    show Ensures (if deadline.sub (s.tickClock W).clock ≤ 0 then _ else _) (s.tickClock W) _ _
    split_ifs with hlate
    · exact Ensures.throw (.inr ⟨rfl, _, _, hlate⟩)
    · exact Ensures.pure trivial
  refine Ensures.bind (Q := fun _ _ => False) (htimeout.bind fun timeout u _ => ?_)
    fun _ _ h => h.elim
  obtain ⟨finalUrl, contentType, headers, hanswer⟩ := hserves.files p hp u.moment
    (u.read W cfg (resolveUrl cfg.repoId hfRevision p.1) timeout false true).get rfl
  -- the answer is longer than the verifier reads
  have hread : readAnswer (u.read W cfg (resolveUrl cfg.repoId hfRevision p.1) timeout false true) =
      .error (.failure responseTooLarge) := by
    rw [readAnswer, show (u.read W cfg _ timeout false true).answer = _ from hanswer]
    dsimp only
    rw [if_neg (by simp), if_neg (by simp [State.read]), if_pos hsize]
  rw [Ensures, request, hread]
  exact .inl rfl

/-- By induction on the files: those before the first one above the bound are read. -/
theorem verifyFiles_too_large {files : Snapshot} (hserves : Serves W cfg hfRevision tree listing)
    (hmem : ∀ p ∈ files, p ∈ tree.files) (hbig : ∃ p ∈ files, maxResponseBytes < p.2.length) :
    Ensures (verifyFiles W cfg deadline hfRevision files) s (fun _ _ => False)
      (fun e u => e = .failure responseTooLarge ∨ Late W deadline e u) := by
  induction files generalizing s with
  | nil => simp at hbig
  | cons p rest ih =>
    obtain ⟨hp, hrest⟩ := List.forall_mem_cons.mp hmem
    rw [verifyFiles]
    by_cases hsize : p.2.length ≤ maxResponseBytes
    · refine Ensures.bind ((getBytes_returns hserves hp hsize).mono_error fun _ _ h => .inr h) ?_
      rintro _ u rfl
      refine Ensures.bind (Q := fun _ _ => True) trivial fun _ v _ => ?_
      rw [if_neg (by simp)]
      refine ih hrest ?_
      obtain ⟨q, hq, hlarge⟩ := hbig
      rcases List.mem_cons.mp hq with rfl | hq
      · omega
      · exact ⟨q, hq, hlarge⟩
    · exact (getBytes_too_large hserves hp (by omega)).bind fun _ _ h => h.elim

/-- An admitted file above the bound makes every check of a faithful publication fail. -/
theorem Serves.too_large (hstaged : Staged cfg repository snapshot tree)
    (hserves : Serves W cfg hfRevision tree listing)
    (hcheckout : ∀ n, sourceSnapshot (W.checkout n) cfg.sourceRevision = .ok snapshot)
    (hsize : listing.length ≤ maxResponseBytes)
    (hcount : tree.files.length + tree.dirs.length < maxTreeEntries)
    (hbig : ∃ p ∈ snapshot, maxResponseBytes < p.2.length) :
    Ensures (verifySourcePublication W cfg deadline hfRevision) s (fun _ _ => False)
      (fun e u => e = .failure responseTooLarge ∨ Late W deadline e u) := by
  obtain ⟨binding, body, hadmitted, _, _, hnodup, htree⟩ := hstaged.spec
  rw [verifySourcePublication]
  refine Ensures.bind ((takeSnapshot_returns hcheckout).mono_error fun _ _ h => .inr h) ?_
  rintro snapshot u rfl
  refine Ensures.bind (Q := fun _ _ => True) trivial fun _ v _ => ?_
  have hset : Ensures (verifyOutputSet W cfg deadline hfRevision
      (Dict.keys snapshot ++ [sourceBindingFilename])) v (fun _ _ => True) (Late W deadline) :=
    outputSet_returns hserves hadmitted hnodup htree hsize hcount
  refine Ensures.bind (hset.mono_error fun _ _ h => .inr h) fun _ w _ => ?_
  refine (verifyFiles_too_large hserves ?_ hbig).bind fun _ _ h => h.elim
  intro p hp
  exact (mem_files_of_holds htree p).mpr (List.mem_append_left _ hp)

/-- Without a deadline there is always time. -/
theorem WithinBounds.inTime (hbounds : WithinBounds tree listing)
    (hstaged : Staged cfg repository snapshot tree) (hserves : Serves W cfg hfRevision tree listing)
    (hcheckout : ∀ n, sourceSnapshot (W.checkout n) cfg.sourceRevision = .ok snapshot)
    (hrepository : Str.strip repository = sourceRepository) (s t : State) :
    verifySourcePublication W cfg (.inf false) hfRevision s ≠ .error (.failure timedOut) t := by
  have hreturns : Ensures (verifySourcePublication W cfg (.inf false) hfRevision) s
      (fun _ _ => True) (Late W (.inf false)) :=
    hserves.returns hstaged hcheckout hbounds hrepository
  intro h
  exact not_late_inf (hreturns.of_error h)

theorem addRecord_sample (body : Bytes) :
    addRecord (sampleCheckout body) [] sampleRecord = .ok [(lit "app.py", body)] := by
  have hparse : parseRecord sampleRecord =
      some (lit "100644", lit "blob", sampleRevision 'd', lit "space/app.py") := by decide +kernel
  have hadmits : admitsEntry [] (lit "100644") (lit "blob") (sampleRevision 'd')
      (lit "space/app.py") = true := by decide
  have hpath : relativePath (lit "space/app.py") = lit "app.py" := by decide
  rw [addRecord, if_neg (by decide), hparse]
  dsimp only
  rw [hadmits, if_neg (by decide), hpath]
  show (if some body ≠ some body then _ else _) = _
  rw [if_neg (by simp)]
  rfl

theorem sourceSnapshot_sample (body : Bytes) :
    sourceSnapshot (sampleCheckout body) (sampleRevision 'c') = .ok [(lit "app.py", body)] := by
  have hcheck : checkSource (sampleCheckout body) (sampleRevision 'c') = .ok () := by rfl
  have hgit : gitBytes (sampleCheckout body).lsTree = .ok sampleRecord := rfl
  have hsplit : splitBytes 0 sampleRecord = [sampleRecord] := by decide
  have hfold : (splitBytes 0 sampleRecord).foldlM (addRecord (sampleCheckout body)) [] =
      .ok [(lit "app.py", body)] := by
    rw [hsplit, List.foldlM_cons, addRecord_sample]
    rfl
  rw [sourceSnapshot, hcheck, hgit]
  simp only [bind, Except.bind, hfold]
  rfl

theorem write_flat {t : Tree} {path : Str} {body : Bytes} (hflat : ancestors path = [])
    (hdir : path ∉ t.dirs) (hnew : path ∉ Dict.keys t.files) :
    t.write path body = .ok ⟨t.files ++ [(path, body)], t.dirs⟩ := by
  rw [Tree.write, hflat, if_neg (by simp)]
  dsimp only
  rw [List.filter_nil, List.append_nil, if_neg hdir, Dict.set_of_not_mem hnew]

/-- A release of one file next to the binding is staged. -/
theorem stageRelease_sample {binding : Dict} (body : Bytes) {bytes : Bytes}
    (hbytes : jsonBytes binding = some bytes) :
    stageRelease [(lit "app.py", body)] binding = .ok ([(lit "app.py", body),
      (sourceBindingFilename, bytes)],
      ⟨[(sourceBindingFilename, bytes), (lit "app.py", body)], []⟩) := by
  have hne : lit "app.py" ≠ sourceBindingFilename := by decide
  have hsafe : safeSourcePath (lit "app.py") = true ∧
      safeSourcePath sourceBindingFilename = true := by
    decide
  have hflat : ancestors (lit "app.py") = [] ∧ ancestors sourceBindingFilename = [] := by
    decide
  have hset : Dict.set [(lit "app.py", body)] sourceBindingFilename bytes =
      [(lit "app.py", body), (sourceBindingFilename, bytes)] :=
    Dict.set_of_not_mem (by simpa [Dict.keys] using hne.symm)
  have hsort : sortByKey [(lit "app.py", body), (sourceBindingFilename, bytes)] =
      [(sourceBindingFilename, bytes), (lit "app.py", body)] := by
    have hle : sourceBindingFilename ≤ lit "app.py" := by decide
    rw [sortByKey_eq_of_perm (by simpa using hne) (List.Perm.swap _ _ [])]
    exact sortByKey_of_pairwise (by simpa [KeyLE] using hle)
  -- the two files are written in the order of their names
  have hfold : [(sourceBindingFilename, bytes), (lit "app.py", body)].foldlM
      (fun t p => t.write p.1 p.2) (⟨[], []⟩ : Tree) =
      .ok ⟨[(sourceBindingFilename, bytes), (lit "app.py", body)], []⟩ := by
    have hfirst : (⟨[], []⟩ : Tree).write sourceBindingFilename bytes =
        .ok ⟨[(sourceBindingFilename, bytes)], []⟩ :=
      write_flat hflat.2 (by simp) (by simp [Dict.keys])
    have hsecond : (⟨[(sourceBindingFilename, bytes)], []⟩ : Tree).write (lit "app.py") body =
        .ok ⟨[(sourceBindingFilename, bytes), (lit "app.py", body)], []⟩ :=
      write_flat hflat.1 (by simp) (by simpa [Dict.keys] using hne)
    rw [List.foldlM_cons, hfirst]
    show List.foldlM (fun t p => t.write p.1 p.2) (⟨[(sourceBindingFilename, bytes)], []⟩ : Tree)
      [(lit "app.py", body)] = _
    rw [List.foldlM_cons, hsecond]
    rfl
  have hvalid : validateReleaseTree ⟨[(sourceBindingFilename, bytes), (lit "app.py", body)], []⟩
      [(lit "app.py", body), (sourceBindingFilename, bytes)] = .ok () := by
    simp [validateReleaseTree, Dict.keys, Dict.get, hsafe, hne]
    rfl
  rw [stageRelease, if_neg (by simp [Dict.keys, hsafe, hne]), hbytes]
  dsimp only
  rw [hset, hsort, hfold]
  dsimp only
  rw [hvalid]

/-- The listing of the sample release, as it is read. -/
def sampleListing : Bytes :=
  ((dumps indentDumps (reportedTree [lit "app.py", sourceBindingFilename])).bind utf8).getD []

def sampleBinding : Bytes :=
  ((sourceBinding sourceRepository (sampleRevision 'c')).bind jsonBytes).getD []

def sampleTree (body : Bytes) : Tree :=
  ⟨[(sourceBindingFilename, sampleBinding), (lit "app.py", body)], []⟩

theorem serves_sample (body : Bytes) :
    Serves (healthy body (sampleRevision 'a')) sampleConfig (sampleRevision 'a') (sampleTree body)
      sampleListing := by
  refine ⟨?_, ?_, ?_⟩
  · intro n g hurl
    refine ⟨lit "application/json", [(lit "Cache-Control", lit "no-store")], ?_, by decide⟩
    show (if g.url = _ then _ else if g.url = _ then _ else if g.url = _ then _ else _) = _
    rw [if_neg (by rw [hurl]; decide), if_neg (by rw [hurl]; decide), if_pos hurl]
    rfl
  -- the listing names the two files
  · have hloads : (decodeUtf8 sampleListing).bind (loads plainLoads) =
        some (.arr [.obj (strings [(lit "path", lit "app.py"), (lit "type", lit "file")]),
          .obj (strings [(lit "path", sourceBindingFilename), (lit "type", lit "file")])]) := by
      decide +kernel
    obtain ⟨text, htext, hloads⟩ := Option.bind_eq_some_iff.mp hloads
    refine ⟨text, _, [(false, lit "app.py"), (false, sourceBindingFilename)], htext, rfl, hloads,
      ?_, .swap _ _ []⟩
    exact .cons ⟨_, rfl, rfl, rfl⟩ (.cons ⟨_, rfl, rfl, rfl⟩ .nil)
  · intro p hp n g hurl
    rcases List.mem_cons.mp hp with rfl | hp
    · dsimp only at hurl ⊢
      refine ⟨g.url, [], [], ?_⟩
      show (if g.url = _ then _ else if g.url = _ then _ else if g.url = _ then _ else
        if g.url = _ then _ else if g.url = _ then _ else _) = _
      rw [if_neg (by rw [hurl]; decide), if_neg (by rw [hurl]; decide),
        if_neg (by rw [hurl]; decide), if_neg (by rw [hurl]; decide), if_pos hurl]
      rfl
    · rw [List.mem_singleton.mp hp] at hurl ⊢
      dsimp only at hurl ⊢
      refine ⟨g.url, [], [], ?_⟩
      show (if g.url = _ then _ else if g.url = _ then _ else if g.url = _ then _ else
        if g.url = _ then _ else _) = _
      rw [if_neg (by rw [hurl]; decide), if_neg (by rw [hurl]; decide),
        if_neg (by rw [hurl]; decide), if_pos hurl]

theorem staged_sample (body : Bytes) :
    Staged sampleConfig sourceRepository [(lit "app.py", body)] (sampleTree body) := by
  have hsome :
      ((sourceBinding sourceRepository (sampleRevision 'c')).bind jsonBytes).isSome = true := by
    decide +kernel
  obtain ⟨bytes, hbytes⟩ := Option.isSome_iff_exists.mp hsome
  obtain ⟨binding, hbinding, hjson⟩ := Option.bind_eq_some_iff.mp hbytes
  have hsample : sampleBinding = bytes := by
    rw [sampleBinding, hbytes]
    rfl
  have hstage := stageRelease_sample body hjson
  rw [← hsample] at hstage
  exact ⟨⟨sampleCheckout body, sourceSnapshot_sample body⟩, ⟨binding, _, hbinding, hstage⟩⟩

/-- One byte more than the verifier reads. -/
def largeFile : Bytes := List.replicate (maxResponseBytes + 1) 0

theorem large_largeFile : maxResponseBytes < largeFile.length := by
  rw [largeFile, List.length_replicate]
  exact Nat.lt_succ_self _

theorem sampleListing_length : sampleListing.length ≤ maxResponseBytes := by
  decide

/-- The large file is staged and served, next to the binding. -/
theorem exists_large_publication : ∃ W cfg hfRevision repository snapshot tree listing,
    Staged cfg repository snapshot tree ∧ Serves W cfg hfRevision tree listing ∧
      (∀ n, sourceSnapshot (W.checkout n) cfg.sourceRevision = .ok snapshot) ∧
      listing.length ≤ maxResponseBytes ∧
      tree.files.length + tree.dirs.length < maxTreeEntries ∧
      ∃ p ∈ snapshot, maxResponseBytes < p.2.length := by
  have hcount : 2 + 0 < maxTreeEntries := by decide
  exact ⟨healthy largeFile (sampleRevision 'a'), sampleConfig, sampleRevision 'a',
    sourceRepository, _,
    sampleTree largeFile, sampleListing, staged_sample largeFile, serves_sample largeFile,
    fun _ => sourceSnapshot_sample largeFile, sampleListing_length, hcount, _,
    List.mem_singleton_self _, large_largeFile⟩

/-- The publisher stages the large file, the Space serves it, and the check fails
although there is time. -/
theorem publication_unverifiable :
    ¬ ∀ W cfg deadline hfRevision s repository snapshot tree listing,
      Staged cfg repository snapshot tree → Serves W cfg hfRevision tree listing →
      (∀ n, sourceSnapshot (W.checkout n) cfg.sourceRevision = .ok snapshot) →
      (∀ t, verifySourcePublication W cfg deadline hfRevision s ≠ .error (.failure timedOut) t) →
      ∃ t, verifySourcePublication W cfg deadline hfRevision s = .ok () t := by
  intro hclaim
  obtain ⟨W, cfg, hfRevision, repository, snapshot, tree, listing, hstaged, hserves,
    hcheckout, hsize,
    hcount, hbig⟩ := exists_large_publication
  let s : State := ⟨0, 0, [], newEvidence cfg, []⟩
  have hfails : Ensures (verifySourcePublication W cfg (.inf false) hfRevision) s (fun _ _ => False)
      (fun e _ => e = .failure responseTooLarge) :=
    (hserves.too_large hstaged hcheckout hsize hcount hbig).mono_error fun _ _ h =>
      h.resolve_right not_late_inf
  have htime : ∀ t, verifySourcePublication W cfg (.inf false) hfRevision s ≠
      .error (.failure timedOut) t := by
    intro t ht
    have hcode := congrArg VerificationFailure.code (Stop.failure.inj (hfails.of_error ht))
    exact absurd hcode (by decide)
  obtain ⟨t, ht⟩ := hclaim W cfg (.inf false) hfRevision s repository snapshot tree listing hstaged
    hserves hcheckout htime
  exact hfails.of_ok ht

/-! ### A release with a directory -/

def statusPath : Str := lit "pages/status.md"

/-- Two files with contents, one of them in a directory. -/
def nestedFiles : Snapshot :=
  [(lit "app.py", (utf8 (lit "import szl_router\n")).getD []),
    (statusPath, (utf8 (lit "# Status\n")).getD [])]

def nestedRecords : Bytes :=
  (utf8 (lit "100644 blob " ++ sampleRevision 'd' ++ lit "\tspace/app.py\x00100644 blob " ++
    sampleRevision 'e' ++ lit "\tspace/" ++ statusPath ++ lit "\x00")).getD []

def nestedCheckout : Checkout :=
  { sampleCheckout [] with
    entries := [(lit "app.py", .file), (lit "pages", .dir), (statusPath, .file)]
    lsTree := some nestedRecords
    blob := fun oid =>
      Dict.get nestedFiles (if oid = sampleRevision 'd' then lit "app.py" else statusPath)
    localFile := fun path => Dict.get nestedFiles path }

def nestedTree : Tree :=
  ⟨(sourceBindingFilename, sampleBinding) :: nestedFiles, [lit "pages"]⟩

/-- The listing shows the directory too. -/
def nestedListing : Bytes :=
  ((dumps indentDumps (.arr
    [.obj (strings [(lit "type", lit "file"), (lit "path", lit "app.py")]),
      .obj (strings [(lit "type", lit "directory"), (lit "path", lit "pages")]),
      .obj (strings [(lit "type", lit "file"), (lit "path", statusPath)]),
      .obj (strings [(lit "type", lit "file"), (lit "path", sourceBindingFilename)])])).bind
    utf8).getD []

def nestedSpace : World :=
  { healthy [] (sampleRevision 'a') with
    answer := fun n g =>
      if g.url = treeUrl sampleConfig.repoId (sampleRevision 'a') then
        .response 200 g.url (lit "application/json") [] nestedListing
      else
        match nestedTree.files.find? fun p =>
          g.url = resolveUrl sampleConfig.repoId (sampleRevision 'a') p.1 with
        | some p => .response 200 g.url [] [] p.2
        | none => (healthy [] (sampleRevision 'a')).answer n g
    checkout := fun _ => nestedCheckout }

theorem ok_of_toOption {ε α : Type} {x : Except ε α} {a : α} (h : x.toOption = some a) :
    x = .ok a := by
  cases x with
  | error e => exact nomatch h
  | ok b => exact congrArg _ (Option.some.inj h)

theorem sourceSnapshot_nested :
    sourceSnapshot nestedCheckout (sampleRevision 'c') = .ok nestedFiles := by
  have hsome : (sourceSnapshot nestedCheckout (sampleRevision 'c')).toOption =
      some nestedFiles := by decide +kernel
  exact ok_of_toOption hsome

theorem serves_nested :
    Serves nestedSpace sampleConfig (sampleRevision 'a') nestedTree nestedListing := by
  refine ⟨?_, ?_, ?_⟩
  · intro n g hurl
    refine ⟨lit "application/json", [], ?_, by decide⟩
    simp only [nestedSpace, if_pos hurl]
  · have hloads : (decodeUtf8 nestedListing).bind (loads plainLoads) = some (.arr
        [.obj (strings [(lit "path", lit "app.py"), (lit "type", lit "file")]),
          .obj (strings [(lit "path", lit "pages"), (lit "type", lit "directory")]),
          .obj (strings [(lit "path", statusPath), (lit "type", lit "file")]),
          .obj (strings [(lit "path", sourceBindingFilename), (lit "type", lit "file")])]) := by
      decide +kernel
    obtain ⟨text, htext, hloads⟩ := Option.bind_eq_some_iff.mp hloads
    refine ⟨text, _, [(false, lit "app.py"), (true, lit "pages"), (false, statusPath),
      (false, sourceBindingFilename)], htext, rfl, hloads, ?_, by decide⟩
    exact .cons ⟨_, rfl, rfl, rfl⟩ (.cons ⟨_, rfl, rfl, rfl⟩
      (.cons ⟨_, rfl, rfl, rfl⟩ (.cons ⟨_, rfl, rfl, rfl⟩ .nil)))
  · have hother : ∀ p ∈ nestedTree.files, resolveUrl sampleConfig.repoId (sampleRevision 'a') p.1 ≠
        treeUrl sampleConfig.repoId (sampleRevision 'a') := by decide +kernel
    -- each file is served under its own address, and the listing under another one
    have hfind : ∀ p ∈ nestedTree.files, (nestedTree.files.find? fun q =>
        resolveUrl sampleConfig.repoId (sampleRevision 'a') p.1 =
          resolveUrl sampleConfig.repoId (sampleRevision 'a') q.1) = some p := by decide +kernel
    intro p hp n g hurl
    refine ⟨g.url, [], [], ?_⟩
    simp only [nestedSpace, hurl, if_neg (hother p hp), hfind p hp]

theorem staged_nested : Staged sampleConfig sourceRepository nestedFiles nestedTree := by
  have hstaged : ((sourceBinding sourceRepository (sampleRevision 'c')).bind fun binding =>
      (stageRelease nestedFiles binding).toOption.map fun r => (r.2.files, r.2.dirs)) =
      some (nestedTree.files, nestedTree.dirs) := by
    decide +kernel
  obtain ⟨binding, hbinding, hrelease⟩ := Option.bind_eq_some_iff.mp hstaged
  obtain ⟨⟨expected, files, dirs⟩, hrelease, htree⟩ := Option.map_eq_some_iff.mp hrelease
  obtain ⟨rfl, rfl⟩ := Prod.mk.inj htree
  exact ⟨⟨nestedCheckout, sourceSnapshot_nested⟩, binding, expected, hbinding,
    ok_of_toOption hrelease⟩

theorem publication_verifiable_iff_nested :
    ∃ t, verifySourcePublication nestedSpace sampleConfig (.inf false) (sampleRevision 'a')
      ⟨0, 0, [], newEvidence sampleConfig, []⟩ = .ok () t := by
  have hbounds : WithinBounds nestedTree nestedListing :=
    ⟨by decide +kernel, by decide +kernel, by decide +kernel⟩
  have hrepository : Str.strip sourceRepository = sourceRepository := by decide
  have htime := hbounds.inTime staged_nested serves_nested (fun _ => sourceSnapshot_nested)
    hrepository
  exact (publication_verifiable_iff staged_nested serves_nested (fun _ => sourceSnapshot_nested)
    (htime _)).mpr ⟨hbounds, hrepository⟩

end Drift

end SzlRouter
