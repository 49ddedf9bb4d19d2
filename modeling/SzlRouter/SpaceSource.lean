/-
The source of the status Space, as its publisher reads and stages it.

The publisher takes the tracked blobs of one revision, adds a binding file that
names the revision, and writes both to a new directory.  `Checkout` is what Git
and the file system answer.

* `sourceSnapshot_spec` — what a snapshot contains;
* `stageRelease_spec` — a staged tree holds the snapshot and the binding, and a
  directory exactly above each of its files.
-/
import SzlRouter.JsonIndent
import SzlRouter.JsonStable
import SzlRouter.Revision

namespace SzlRouter

open Py

def sourceBindingFilename : Str := lit "SOURCE_BINDING.json"

structure PublicationSourceError where
  code : Str
  message : Str

/-! ### The source binding -/

/-- `_REPO_ID.fullmatch(s)`. -/
def isRepoId (s : Str) : Bool :=
  match Str.split (chr '/') s with
  | [owner, name] => owner ≠ [] ∧ name ≠ [] ∧
      (owner ++ name).all fun c => Str.isAlnum c || c ∈ lit "_.-"
  | _ => false

/-- `_source_binding`; `none` where it exits. -/
def sourceBinding (repository revision : Str) : Option Dict :=
  let repository := Str.strip repository
  let revision := Str.lower (Str.strip revision)
  if !isRepoId repository then none
  else if !isSha revision then none
  else some [(lit "schema", .str (lit "szl.source-binding/v1")),
    (lit "source_repository", .str repository), (lit "source_revision", .str revision),
    (lit "source_path", .str (lit "space")),
    (lit "relation", .str (lit "exact-deployed-subtree")),
    (lit "product_class", .str (lit "FLAGSHIP_LLM_GATEWAY")),
    (lit "public_space", .str (lit "SZLHOLDINGS/llm-router-live")),
    (lit "evidence_url", .str (lit "https://github.com/" ++ repository ++ lit "/tree/" ++
      revision ++ lit "/space"))]

/-- The options of `json.dumps(value, indent=2, sort_keys=True)`. -/
def indentDumps : DumpOpts := ⟨true, true, true, false⟩

/-- `(json.dumps(value, indent=2, sort_keys=True) + "\n").encode("utf-8")`. -/
def jsonBytes (value : Dict) : Option Bytes :=
  (dumpsIndent indentDumps (.obj value)).bind fun text => utf8 (text ++ [10])

theorem isWs_lineFeed : ∀ c ∈ ([10] : Str), isWs c = true := by
  intro c hc
  rw [List.mem_singleton.mp hc]
  rfl

/-- An object of texts, without surrogates and with distinct keys, is read back from
its bytes, its members sorted. -/
theorem loads_jsonBytes {lo : LoadOpts} (hlo : lo.constants = true) {d : Dict} {body : Bytes}
    (hne : d ≠ [])
    (hmembers : ∀ p ∈ d, joinPairs p.1 = p.1 ∧ ∃ s, p.2 = .str s ∧ joinPairs s = s)
    (hnodup : (Dict.keys d).Nodup) (h : jsonBytes d = some body) :
    (decodeUtf8 body).bind (loads lo) = some (.obj (sortByKey d)) := by
  obtain ⟨text, htext, hbody⟩ := Option.bind_eq_some_iff.mp h
  rw [dumpsIndent] at htext
  split_ifs at htext with hdump
  obtain rfl := Option.some.inj htext
  have hkeys : d.map (fun p => indentDumps.text p.1) = Dict.keys d :=
    List.map_congr_left fun p hp => (hmembers p hp).1
  have hscalar : ∀ p ∈ d, Scalar p.2 := by
    intro p hp
    obtain ⟨_, s, hs, _⟩ := hmembers p hp
    rw [hs]
    trivial
  -- texts without surrogate pairs are read back as themselves, in the order of their keys
  have hreread : rereadMembers indentDumps d = sortByKey d := by
    rw [rereadMembers]
    refine List.map_congr_left (fun p hp => ?_) |>.trans (List.map_id _)
    obtain ⟨hkey, s, hs, hjoin⟩ := hmembers p ((sortByKey_perm d).mem_iff.mp hp)
    refine Prod.ext hkey ?_
    show norm indentDumps p.2 = p.2
    rw [hs]
    exact congrArg Json.str hjoin
  rw [decodeUtf8_utf8 hbody, Option.bind_some,
    loads_renderIndent (fun _ => hlo) hne hscalar (hkeys ▸ hnodup) hdump isWs_lineFeed,
    norm_obj_of_nodup (hkeys ▸ hnodup), hreread]

theorem ascii_of_isRepoId {repository : Str} (h : isRepoId repository = true) :
    Ascii repository := by
  rw [isRepoId] at h
  split at h
  · rename_i owner name hsplit
    obtain ⟨_, _, hall⟩ := of_decide_eq_true h
    intro c hc
    rcases Str.mem_of_split (c := chr '/') hc with rfl | ⟨w, hw, hcw⟩
    · decide
    · have hmem : c ∈ owner ++ name := by
        rw [hsplit] at hw
        rcases List.mem_cons.mp hw with rfl | hw
        · exact List.mem_append_left _ hcw
        · rw [List.mem_singleton.mp hw] at hcw
          exact List.mem_append_right _ hcw
      have hchar := List.all_eq_true.mp hall c hmem
      rcases Bool.or_eq_true _ _ ▸ hchar with halnum | hother
      · rw [Str.isAlnum, decide_eq_true_iff, Str.isDigit, decide_eq_true_iff] at halnum
        omega
      · exact ascii_of_all (s := lit "_.-") (by decide) c (of_decide_eq_true hother)
  · exact nomatch h

theorem ascii_of_isSha {revision : Str} (h : isSha revision = true) : Ascii revision := by
  obtain ⟨_, hall⟩ := of_decide_eq_true h
  intro c hc
  have hhex := List.all_eq_true.mp hall c hc
  rw [Str.isHex, decide_eq_true_iff, Str.isDigit, decide_eq_true_iff] at hhex
  omega

/-- A binding is read back from its bytes. -/
theorem loads_sourceBinding (lo : LoadOpts) (hlo : lo.constants = true) {repository revision : Str}
    {b : Dict} {body : Bytes} (hb : sourceBinding repository revision = some b)
    (hbody : jsonBytes b = some body) :
    (Dict.keys b).Nodup ∧ field b (lit "source_repository") = .str (Str.strip repository) ∧
      (decodeUtf8 body).bind (loads lo) = some (.obj (sortByKey b)) := by
  rw [sourceBinding] at hb
  split_ifs at hb with hrepo hsha
  obtain rfl := Option.some.inj hb
  have hrepository : Ascii (Str.strip repository) := ascii_of_isRepoId (by simpa using hrepo)
  have hrevision : Ascii (Str.lower (Str.strip revision)) := ascii_of_isSha (by simpa using hsha)
  have hnodup : (["schema", "source_repository", "source_revision", "source_path", "relation",
      "product_class", "public_space", "evidence_url"].map lit).Nodup := by decide
  -- all texts of the binding are ASCII: the literals, the repository and the revision
  have htext : ∀ {k : String} {s : Str}, (lit k).all (fun c => c.val < 128) = true → Ascii s →
      joinPairs (lit k) = lit k ∧ ∃ s', Json.str s = .str s' ∧ joinPairs s' = s' :=
    fun hk hs => ⟨joinPairs_of_ascii (ascii_of_all hk), _, rfl, joinPairs_of_ascii hs⟩
  refine ⟨hnodup, rfl, loads_jsonBytes hlo (List.cons_ne_nil _ _) ?_ hnodup hbody⟩
  have hfixed : ∀ {k w : String}, (lit k).all (fun c => c.val < 128) = true →
      (lit w).all (fun c => c.val < 128) = true → joinPairs (lit k) = lit k ∧
        ∃ s', Json.str (lit w) = .str s' ∧ joinPairs s' = s' :=
    fun hk hw => htext hk (ascii_of_all hw)
  have hurl : Ascii (lit "https://github.com/" ++ Str.strip repository ++ lit "/tree/" ++
      Str.lower (Str.strip revision) ++ lit "/space") :=
    ((((ascii_of_all (by decide)).append hrepository).append
      (ascii_of_all (by decide))).append hrevision).append (ascii_of_all (by decide))
  simp only [List.forall_mem_cons]
  exact ⟨hfixed (by decide) (by decide), htext (by decide) hrepository,
    htext (by decide) hrevision, hfixed (by decide) (by decide),
    hfixed (by decide) (by decide), hfixed (by decide) (by decide),
    hfixed (by decide) (by decide), htext (by decide) hurl,
    fun p hp => absurd hp List.not_mem_nil⟩

/-! ### Paths -/

def isControl (c : CodePoint) : Bool := c.val < 32 ∨ c.val = 127

def safeSourcePath (value : Str) : Bool :=
  value ≠ [] ∧
    (Str.split (chr '/') value).all (fun part =>
      part ∉ [[], lit ".", lit "..", lit ".git", lit "__pycache__"]) ∧
    value.all (fun c => c ∉ lit "\\:\x00\r\n") ∧ value.all (fun c => !isControl c) ∧
    ¬ Str.endsWith value (lit ".pyc") ∧ ¬ Str.endsWith value (lit ".pyo")

/-- The directories above a path, the outermost first. -/
def ancestors (path : Str) : List Str :=
  (List.range path.length).filterMap fun i =>
    if path[i]? = some (chr '/') then some (path.take i) else none

theorem mem_ancestors {path d : Str} :
    d ∈ ancestors path ↔ ∃ rest, path = d ++ chr '/' :: rest := by
  rw [ancestors, List.mem_filterMap]
  constructor
  · rintro ⟨i, _, hi⟩
    by_cases h : path[i]? = some (chr '/')
    · rw [if_pos h] at hi
      refine ⟨path.drop (i + 1), ?_⟩
      rw [← Option.some.inj hi]
      obtain ⟨hlt, hget⟩ := List.getElem?_eq_some_iff.mp h
      rw [← hget, List.getElem_cons_drop, List.take_append_drop]
    · rw [if_neg h] at hi
      exact absurd hi (by simp)
  · rintro ⟨rest, rfl⟩
    refine ⟨d.length, by simp, ?_⟩
    rw [if_pos (by simp), List.take_left]

/-! ### The snapshot -/

inductive EntryKind
  | file
  | dir
  | symlink
  | special
  deriving DecidableEq

/-- What Git and the file system answer about the checkout; `none` where a Git
command fails. -/
structure Checkout where
  rootIsSymlink : Bool
  rootIsDir : Bool
  /-- `space_dir.name` and `space_dir.parent` of the resolved root -/
  spaceName : Str
  parent : Str
  /-- `rev-parse --show-toplevel`, resolved -/
  topLevel : Option Str
  head : Option Str
  status : Option Bytes
  /-- `space_dir.rglob("*")` -/
  entries : List (Str × EntryKind)
  bindingExists : Bool
  /-- `ls-tree -rz --full-tree <revision> -- space` -/
  lsTree : Option Bytes
  /-- `cat-file blob <oid>` -/
  blob : Str → Option Bytes
  /-- the bytes of a regular file under the root that is no link -/
  localFile : Str → Option Bytes

def gitError : PublicationSourceError :=
  ⟨lit "SOURCE_CHECKOUT_UNAVAILABLE", lit "Cannot read the immutable Git source."⟩

/-- The answer of a Git command, or its failure. -/
def gitBytes {α : Type} : Option α → Except PublicationSourceError α
  | none => .error gitError
  | some a => .ok a

/-- `record.split(b)`. -/
def splitBytes (b : Byte) : Bytes → List Bytes
  | [] => [[]]
  | x :: s =>
    if x = b then [] :: splitBytes b s
    else match splitBytes b s with
      | [] => [[x]]
      | w :: ws => (x :: w) :: ws

/-- `decode("ascii")`. -/
def decodeAscii (b : Bytes) : Option Str := if b.all (· < 128) then decodeUtf8 b else none

/-- One record of `ls-tree`: mode, kind, object and path. -/
def parseRecord (record : Bytes) : Option (Str × Str × Str × Str) :=
  match record.span (· ≠ 9) with
  | (metadata, _ :: rawPath) =>
    match (decodeAscii metadata).map (Str.split (chr ' ')), decodeUtf8 rawPath with
    | some [mode, kind, oid], some path => some (mode, kind, oid, path)
    | _, _ => none
  | (_, []) => none

/-- `path.removeprefix("space/")`. -/
def relativePath (path : Str) : Str :=
  if Str.startsWith path (lit "space/") then path.drop 6 else path

abbrev Snapshot := List (Str × Bytes)

/-- The checks on one tracked entry. -/
def admitsEntry (snapshot : Snapshot) (mode kind oid path : Str) : Bool :=
  (mode = lit "100644" ∨ mode = lit "100755") ∧ kind = lit "blob" ∧ isSha oid ∧
    Str.startsWith path (lit "space/") ∧ safeSourcePath (relativePath path) ∧
    relativePath path ≠ sourceBindingFilename ∧ relativePath path ∉ Dict.keys snapshot

/-- The body of the loop of `_source_snapshot`. -/
def addRecord (c : Checkout) (snapshot : Snapshot) (record : Bytes) :
    Except PublicationSourceError Snapshot :=
  if record = [] then .ok snapshot
  else match parseRecord record with
    | none => .error ⟨lit "SOURCE_TREE_UNSAFE", lit "Malformed Git tree record."⟩
    | some (mode, kind, oid, path) =>
      if !admitsEntry snapshot mode kind oid path then
        .error ⟨lit "SOURCE_TREE_UNSAFE", lit "Unsafe or duplicate tracked source entry."⟩
      else match c.blob oid with
        | none => .error gitError
        | some body =>
          if c.localFile (relativePath path) ≠ some body then
            .error ⟨lit "SOURCE_WORKTREE_DIRTY", lit "Source bytes differ from the immutable blob."⟩
          else .ok (Dict.set snapshot (relativePath path) body)

/-- The checks of `_source_snapshot` before the tree is read. -/
def checkSource (c : Checkout) (revision : Str) : Except PublicationSourceError Unit := do
  if !isSha revision then
    throw ⟨lit "SOURCE_CHECKOUT_MISMATCH", lit "An exact source SHA is required."⟩
  if c.rootIsSymlink ∨ !c.rootIsDir then
    throw ⟨lit "SOURCE_TREE_UNSAFE", lit "The Space root must be a real directory."⟩
  let topLevel ← gitBytes c.topLevel
  if c.spaceName ≠ lit "space" ∨ topLevel ≠ c.parent then
    throw ⟨lit "SOURCE_TREE_UNSAFE", lit "Only the canonical space subtree is admitted."⟩
  let head ← gitBytes c.head
  if Str.strip head ≠ revision then
    throw ⟨lit "SOURCE_CHECKOUT_MISMATCH", lit "Checkout differs from the declared revision."⟩
  let status ← gitBytes c.status
  if status ≠ [] then
    throw ⟨lit "SOURCE_WORKTREE_DIRTY", lit "The source subtree differs from its revision."⟩
  if c.entries.any fun e => e.2 = .symlink ∨ e.2 = .special then
    throw ⟨lit "SOURCE_TREE_UNSAFE", lit "Source links and special files are not admitted."⟩
  if c.bindingExists then
    throw ⟨lit "SOURCE_TREE_UNSAFE", lit "Source cannot override the generated binding."⟩

def sourceSnapshot (c : Checkout) (revision : Str) : Except PublicationSourceError Snapshot := do
  checkSource c revision
  let records ← gitBytes c.lsTree
  let snapshot ← (splitBytes 0 records).foldlM (addRecord c) []
  if snapshot = [] then
    throw ⟨lit "SOURCE_TREE_EMPTY", lit "The tracked Space subtree is empty."⟩
  return sortByKey snapshot

/-- What a snapshot contains. -/
structure Admitted (snapshot : Snapshot) : Prop where
  nonempty : snapshot ≠ []
  nodup : (Dict.keys snapshot).Nodup
  safe : ∀ path ∈ Dict.keys snapshot, safeSourcePath path = true
  binding : sourceBindingFilename ∉ Dict.keys snapshot

theorem addRecord_spec {c : Checkout} {snapshot next : Snapshot} {record : Bytes}
    (h : addRecord c snapshot record = .ok next) :
    next = snapshot ∨ ∃ path body, path ∉ Dict.keys snapshot ∧ safeSourcePath path = true ∧
      path ≠ sourceBindingFilename ∧ next = snapshot ++ [(path, body)] := by
  rw [addRecord] at h
  -- an empty record is passed over; any other one adds its file, or fails
  by_cases hrecord : record = []
  · rw [if_pos hrecord] at h
    exact .inl (Except.ok.inj h).symm
  rw [if_neg hrecord] at h
  cases hparse : parseRecord record with
  | none => rw [hparse] at h; exact absurd h (by simp)
  | some p =>
    obtain ⟨mode, kind, oid, path⟩ := p
    rw [hparse] at h
    dsimp only at h
    by_cases hadmits : admitsEntry snapshot mode kind oid path = true
    · rw [if_neg (by simp [hadmits])] at h
      cases hblob : c.blob oid with
      | none => rw [hblob] at h; exact absurd h (by simp)
      | some body =>
        rw [hblob] at h
        dsimp only at h
        by_cases hlocal : c.localFile (relativePath path) = some body
        · rw [if_neg (not_not.mpr hlocal)] at h
          rw [admitsEntry, decide_eq_true_iff] at hadmits
          -- the tests on the entry, of which the path's are kept
          obtain ⟨_, _, _, _, hsafe, hbinding, hnew⟩ := hadmits
          refine .inr ⟨relativePath path, body, hnew, hsafe, hbinding, ?_⟩
          rw [← Except.ok.inj h, Dict.set_of_not_mem hnew]
        · rw [if_pos hlocal] at h
          exact absurd h (by simp)
    · rw [if_pos (by simpa using hadmits)] at h
      exact absurd h (by simp)

/-- The loop keeps the paths distinct, safe and off the binding's name. -/
theorem addRecords_spec {c : Checkout} {records : List Bytes} {snapshot final : Snapshot}
    (h : records.foldlM (addRecord c) snapshot = .ok final)
    (hnodup : (Dict.keys snapshot).Nodup)
    (hsafe : ∀ path ∈ Dict.keys snapshot, safeSourcePath path = true ∧
      path ≠ sourceBindingFilename) :
    (Dict.keys final).Nodup ∧ ∀ path ∈ Dict.keys final, safeSourcePath path = true ∧
      path ≠ sourceBindingFilename := by
  -- by induction on the records; a new path is none of those before it
  induction records generalizing snapshot with
  | nil =>
    rw [List.foldlM_nil] at h
    rw [← Except.ok.inj h]
    exact ⟨hnodup, hsafe⟩
  | cons record records ih =>
    rw [List.foldlM_cons] at h
    cases hadd : addRecord c snapshot record with
    | error e => rw [hadd] at h; exact absurd h (by simp [bind, Except.bind])
    | ok next =>
      rw [hadd] at h
      rcases addRecord_spec hadd with rfl | ⟨path, body, hnew, hpath, hbinding, rfl⟩
      · exact ih h hnodup hsafe
      · have hkeys : Dict.keys (snapshot ++ [(path, body)]) = Dict.keys snapshot ++ [path] := by
          rw [Dict.keys, List.map_append]
          rfl
        refine ih h ?_ ?_
        · rw [hkeys]
          refine List.nodup_append.mpr ⟨hnodup, List.nodup_singleton _, ?_⟩
          intro p hp q hq hpq
          rw [List.mem_singleton] at hq
          exact hnew (hq ▸ hpq ▸ hp)
        · intro p hp
          rw [hkeys, List.mem_append, List.mem_singleton] at hp
          rcases hp with hp | rfl
          · exact hsafe p hp
          · exact ⟨hpath, hbinding⟩

theorem keys_sortByKey_mem {d : Snapshot} {path : Str} :
    path ∈ Dict.keys (sortByKey d) ↔ path ∈ Dict.keys d :=
  (keys_sortByKey_perm d).mem_iff

theorem sourceSnapshot_spec {c : Checkout} {revision : Str} {snapshot : Snapshot}
    (h : sourceSnapshot c revision = .ok snapshot) : Admitted snapshot := by
  rw [sourceSnapshot] at h
  cases hcheck : checkSource c revision with
  | error e => rw [hcheck] at h; exact absurd h (by simp [bind, Except.bind])
  | ok u =>
    rw [hcheck] at h
    cases hgit : gitBytes c.lsTree with
    | error e => rw [hgit] at h; exact absurd h (by simp [bind, Except.bind])
    | ok records =>
      rw [hgit] at h
      cases hfold : (splitBytes 0 records).foldlM (addRecord c) [] with
      | error e => simp [bind, Except.bind, hfold] at h
      | ok final =>
        simp only [bind, Except.bind, hfold] at h
        by_cases hempty : final = []
        · rw [if_pos hempty] at h
          exact absurd h (by simp [throw, throwThe, MonadExceptOf.throw])
        · rw [if_neg hempty] at h
          obtain rfl : sortByKey final = snapshot := Except.ok.inj h
          -- sorting keeps the paths, and so does every record
          obtain ⟨hnodup, hsafe⟩ := addRecords_spec hfold List.nodup_nil (by simp [Dict.keys])
          refine ⟨?_, (keys_sortByKey_perm final).nodup_iff.mpr hnodup, ?_, ?_⟩
          · intro hnil
            have := (sortByKey_perm final).length_eq
            rw [hnil] at this
            exact hempty (List.length_eq_zero_iff.mp this.symm)
          · intro path hpath
            exact (hsafe path (keys_sortByKey_mem.mp hpath)).1
          · intro hbinding
            exact (hsafe _ (keys_sortByKey_mem.mp hbinding)).2 rfl

/-! ### Staging -/

/-- A directory tree: regular files with their bytes, and directories. -/
structure Tree where
  files : Snapshot
  dirs : List Str

inductive StageError
  | source (e : PublicationSourceError)
  | os (name : Str)

/-- `target.parent.mkdir(parents=True, exist_ok=True)` and `write_bytes`. -/
def Tree.write (t : Tree) (path : Str) (body : Bytes) : Except StageError Tree :=
  if (ancestors path).any fun d => d ∈ Dict.keys t.files then .error (.os (lit "FileExistsError"))
  else
    let dirs := t.dirs ++ (ancestors path).filter (· ∉ t.dirs)
    if path ∈ dirs then .error (.os (lit "IsADirectoryError"))
    else .ok ⟨Dict.set t.files path body, dirs⟩

/-- `_validate_release_tree`. -/
def validateReleaseTree (t : Tree) (expected : Snapshot) : Except PublicationSourceError Unit := do
  if (t.dirs ++ Dict.keys t.files).any fun path => !safeSourcePath path then
    throw ⟨lit "PUBLICATION_OUTPUT_UNSAFE", lit "Release contains an unsafe path."⟩
  if t.dirs.any fun d =>
      !(Dict.keys expected).any fun name => Str.startsWith name (d ++ lit "/") then
    throw ⟨lit "PUBLICATION_OUTPUT_SET_MISMATCH", lit "Release contains an unexpected directory."⟩
  if ¬ ((Dict.keys t.files).all (· ∈ Dict.keys expected) ∧
      (Dict.keys expected).all (· ∈ Dict.keys t.files)) then
    throw ⟨lit "PUBLICATION_OUTPUT_SET_MISMATCH",
      lit "Release file set differs from the admitted output."⟩
  if ¬ (t.files.all fun p => Dict.get expected p.1 = some p.2) then
    throw ⟨lit "PUBLICATION_BYTE_DRIFT", lit "Release bytes differ from the immutable source."⟩

/-- `_stage_release`: the output it returns and the tree it leaves. -/
def stageRelease (snapshot : Snapshot) (binding : Dict) : Except StageError (Snapshot × Tree) :=
  if (Dict.keys snapshot).any fun path => !safeSourcePath path || path = sourceBindingFilename then
    .error (.source ⟨lit "SOURCE_TREE_UNSAFE",
      lit "Unsafe source output path or binding collision."⟩)
  else match jsonBytes binding with
    | none => .error (.os (lit "ValueError"))
    | some body =>
      match (sortByKey (Dict.set snapshot sourceBindingFilename body)).foldlM
        (fun t p => t.write p.1 p.2) (⟨[], []⟩ : Tree) with
      | .error e => .error e
      | .ok tree =>
        match validateReleaseTree tree (Dict.set snapshot sourceBindingFilename body) with
        | .error e => .error (.source e)
        | .ok () => .ok (Dict.set snapshot sourceBindingFilename body, tree)

/-- A tree with the files `ws` and a directory exactly above each of them. No file is a
directory, as on a disk. -/
structure Tree.Holds (t : Tree) (ws : Snapshot) : Prop where
  files : t.files = ws
  nodup_dirs : t.dirs.Nodup
  dirs : ∀ d, d ∈ t.dirs ↔ ∃ path ∈ Dict.keys ws, d ∈ ancestors path
  apart : ∀ path ∈ Dict.keys ws, path ∉ t.dirs

theorem ancestors_nodup (path : Str) : (ancestors path).Nodup := by
  refine List.Nodup.filterMap ?_ List.nodup_range
  intro i j d hi hj
  rw [Option.mem_def] at hi hj
  by_cases hsi : path[i]? = some (chr '/')
  · by_cases hsj : path[j]? = some (chr '/')
    · rw [if_pos hsi] at hi
      rw [if_pos hsj] at hj
      have hlen : (path.take i).length = (path.take j).length := by
        rw [Option.some.inj hi, Option.some.inj hj]
      obtain ⟨hi', _⟩ := List.getElem?_eq_some_iff.mp hsi
      obtain ⟨hj', _⟩ := List.getElem?_eq_some_iff.mp hsj
      rw [List.length_take, List.length_take] at hlen
      omega
    · rw [if_neg hsj] at hj
      exact absurd hj (by simp)
  · rw [if_neg hsi] at hi
    exact absurd hi (by simp)

theorem Tree.write_holds {t next : Tree} {ws : Snapshot} {path : Str} {body : Bytes}
    (ht : t.Holds ws) (hnew : path ∉ Dict.keys ws) (h : t.write path body = .ok next) :
    next.Holds (ws ++ [(path, body)]) := by
  rw [Tree.write] at h
  -- no file stands where a directory is needed, and no directory where the file is to stand
  by_cases hfile : ((ancestors path).any fun d => d ∈ Dict.keys t.files) = true
  · rw [if_pos hfile] at h
    exact absurd h (by simp)
  rw [if_neg hfile] at h
  dsimp only at h
  by_cases hdir : path ∈ t.dirs ++ (ancestors path).filter (· ∉ t.dirs)
  · rw [if_pos hdir] at h
    exact absurd h (by simp)
  rw [if_neg hdir] at h
  obtain rfl := Except.ok.inj h
  have hkeys : Dict.keys (ws ++ [(path, body)]) = Dict.keys ws ++ [path] := by
    rw [Dict.keys, List.map_append]
    rfl
  -- the directories afterwards are those before and those on the way to the file
  have hmem : ∀ d, d ∈ t.dirs ++ (ancestors path).filter (· ∉ t.dirs) ↔
      d ∈ t.dirs ∨ d ∈ ancestors path := by
    intro d
    rw [List.mem_append, List.mem_filter]
    by_cases hd : d ∈ t.dirs <;> simp [hd]
  refine ⟨?_, ?_, ?_, ?_⟩
  · dsimp only
    rw [ht.files, Dict.set_of_not_mem hnew]
  · refine List.nodup_append.mpr ⟨ht.nodup_dirs, (ancestors_nodup path).filter _, ?_⟩
    rintro d hd e he rfl
    rw [List.mem_filter] at he
    exact absurd hd (by simpa using he.2)
  · intro d
    rw [hmem, ht.dirs, hkeys]
    constructor
    · rintro (⟨p, hp, hd⟩ | hd)
      · exact ⟨p, List.mem_append_left _ hp, hd⟩
      · exact ⟨path, by simp, hd⟩
    · rintro ⟨p, hp, hd⟩
      rcases List.mem_append.mp hp with hp | hp
      · exact .inl ⟨p, hp, hd⟩
      · rw [List.mem_singleton] at hp
        exact .inr (hp ▸ hd)
  · intro p hp
    rw [hkeys, List.mem_append, List.mem_singleton] at hp
    rcases hp with hp | rfl
    · rw [hmem, not_or]
      refine ⟨ht.apart p hp, ?_⟩
      intro hd
      refine hfile (List.any_eq_true.mpr ⟨p, hd, ?_⟩)
      rw [ht.files]
      exact decide_eq_true hp
    · exact hdir

theorem writes_hold {writes ws : Snapshot} {t final : Tree} (ht : t.Holds ws)
    (hnodup : (Dict.keys (ws ++ writes)).Nodup)
    (h : writes.foldlM (fun t p => t.write p.1 p.2) t = .ok final) :
    final.Holds (ws ++ writes) := by
  induction writes generalizing ws t with
  | nil =>
    rw [List.foldlM_nil] at h
    rw [List.append_nil, ← Except.ok.inj h]
    exact ht
  | cons p writes ih =>
    rw [List.foldlM_cons] at h
    cases hwrite : t.write p.1 p.2 with
    | error e => rw [hwrite] at h; exact absurd h (by simp [bind, Except.bind])
    | ok next =>
      rw [hwrite] at h
      -- the path is none of those that were written
      have hnew : p.1 ∉ Dict.keys ws := by
        rw [Dict.keys, List.map_append, List.map_cons] at hnodup
        intro hp
        exact (List.nodup_append.mp hnodup).2.2 _ hp _ (List.mem_cons_self) rfl
      have hnext := Tree.write_holds ht hnew hwrite
      rw [List.append_cons] at hnodup ⊢
      exact ih hnext hnodup h

/-- What a successful staging leaves: the files of the snapshot and the binding after them, in a
tree whose directories are those of its paths. -/
theorem stageRelease_spec {snapshot expected : Snapshot} {binding : Dict} {tree : Tree}
    (hsnapshot : Admitted snapshot) (h : stageRelease snapshot binding = .ok (expected, tree)) :
    ∃ body, jsonBytes binding = some body ∧
      expected = snapshot ++ [(sourceBindingFilename, body)] ∧ (Dict.keys expected).Nodup ∧
      tree.Holds (sortByKey expected) := by
  rw [stageRelease] at h
  -- the guards of the source in its order
  by_cases hunsafe : ((Dict.keys snapshot).any fun path =>
      !safeSourcePath path || path = sourceBindingFilename) = true
  · rw [if_pos hunsafe] at h
    exact absurd h (by simp)
  rw [if_neg hunsafe] at h
  cases hbody : jsonBytes binding with
  | none => rw [hbody] at h; exact absurd h (by simp)
  | some body =>
    rw [hbody] at h
    dsimp only at h
    have hset := Dict.set_of_not_mem (v := body) hsnapshot.binding
    have hnodup : (Dict.keys (Dict.set snapshot sourceBindingFilename body)).Nodup :=
      Dict.nodup_keys_set hsnapshot.nodup
    cases hfold : (sortByKey (Dict.set snapshot sourceBindingFilename body)).foldlM
        (fun t p => t.write p.1 p.2) (⟨[], []⟩ : Tree) with
    | error e => rw [hfold] at h; exact absurd h (by simp)
    | ok t =>
      rw [hfold] at h
      dsimp only at h
      cases hvalid : validateReleaseTree t (Dict.set snapshot sourceBindingFilename body) with
      | error e => rw [hvalid] at h; exact absurd h (by simp)
      | ok u =>
        rw [hvalid] at h
        obtain ⟨rfl, rfl⟩ := Prod.mk.inj (Except.ok.inj h)
        refine ⟨body, rfl, hset, hnodup, ?_⟩
        have hempty : (⟨[], []⟩ : Tree).Holds [] :=
          ⟨rfl, List.nodup_nil, by simp [Dict.keys], by simp [Dict.keys]⟩
        -- the files are written one by one into the empty tree
        have hholds := writes_hold hempty (by
          rw [List.nil_append]
          exact (keys_sortByKey_perm _).nodup_iff.mpr hnodup) hfold
        rwa [List.nil_append] at hholds

end SzlRouter
