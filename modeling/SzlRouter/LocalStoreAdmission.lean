/-
Admission of a model by the bytes of the local store.

When the reader is not interrupted, the check computes a value from the file
tree: each call computes its part, and a sequence of calls computes what its
parts compute.  The slot of the reader is followed by itself, through every exit.

* `hashFile_computes`, `hashBlobs_computes` — what the reading calls compute;
* `structure_guards` — the bounds on structure here, in the gateway and in the verifier;
* `local_store_admission` — a match exactly for what is held, and the slot.
-/
import SzlRouter.LocalStore
import SzlRouter.ManifestPath

namespace SzlRouter

namespace LocalStore

open Py Gateway Procedure

/-! ### What a store holds -/

/-- The node at a path that no link is part of. -/
def Node.reach : Node → List Str → Option Node
  | node, [] => some node
  | .directory entries, name :: path =>
    match Dict.get entries name with
    | none | some (.link _) => none
    | some node => reach node path
  | _, _ :: _ => none

/-- The contents of the regular file at a path below the root, without any link. -/
def regularFile (root : Option Node) (path : List Str) : Option Bytes :=
  match root.bind fun node => node.reach path with
  | some (.file contents) => some contents
  | _ => none

/-- The bytes are a manifest with a config and layers. -/
def IsManifest (raw : Bytes) (config : Dict) (layers : List Dict) : Prop :=
  ∃ text fields version, decodeUtf8 raw = some text ∧
    loads ⟨true, false⟩ text = some (.obj fields) ∧
    (Json.obj fields).depth ≤ MAX_MANIFEST_DEPTH ∧ (Json.obj fields).size ≤ MAX_MANIFEST_NODES ∧
    Dict.get fields (lit "schemaVersion") = some version ∧ isTwo version = true ∧
    Dict.get fields (lit "config") = some (.obj config) ∧
    Dict.get fields (lit "layers") = some (.arr (layers.map .obj)) ∧
    1 ≤ layers.length ∧ layers.length ≤ MAX_LAYERS

/-- The record is the descriptor. -/
structure Describes (record : Dict) (d : Descriptor) : Prop where
  digest : Dict.get record (lit "digest") = some (.str (lit "sha256:" ++ d.digest))
  size : Dict.get record (lit "size") = some (.int d.size)
  mediaType : Dict.get record (lit "mediaType") = some (.str d.mediaType)

/-- The record is a descriptor, and the store holds its blob: a regular file of the declared size
and digest, which no link on its way leads to. -/
structure Holds (root : Option Node) (record : Dict) (d : Descriptor) : Prop
    extends Describes record d where
  blob : ∃ contents, regularFile root (blobPath d.digest) = some contents ∧
    contents.length = d.size ∧ sha256Hex contents = d.digest

/-- The store holds what both pins of a model name: the manifest under its path and digest, and
every blob of it with its size and digest, the weights among them. -/
def Admitted (root : Option Node) (model manifestPin weightPin : Str) : Prop :=
  ∃ path raw config layers weight descriptors,
    manifestRelativePath model = some path ∧
    (regularFile root path = some raw ∧ raw.length ≤ MAX_MANIFEST_BYTES ∧
      sha256Hex raw = manifestPin) ∧
    IsManifest raw config layers ∧
    (∃ record, layers.filter isModelLayer = [record] ∧ Describes record weight) ∧
    weight.digest = weightPin ∧
    List.Forall₂ (Holds root) (config :: layers) descriptors ∧
    (descriptors.map Descriptor.size).sum ≤ MAX_TOTAL_BLOB_BYTES

/-! ### Files -/

/-- An exception of the store check. -/
def IsLocal (e : Failure) : Prop := ∃ state, e = .localStore state

theorem refuse_computes {α : Type} (state : String) :
    Computes IsLocal (refuse state : Reading α) none := Computes.throw ⟨_, rfl⟩

theorem entry_of_directory (entries : List (Str × Node)) (name : Str) :
    (Node.directory entries).entry name = Dict.get entries name := rfl

theorem lstat_concat (node : Node) (path : List Str) (name : Str) :
    node.lstat (path ++ [name]) = (node.lstat path).bind fun n => n.entry name := by
  rw [Node.lstat, List.foldlM_append]
  show ((node.lstat path).bind fun n => List.foldlM Node.entry n [name]) = _
  simp

/-- Where `lstat` of a path is known, the loop goes on to the node of the whole path. -/
theorem checkParts_computes {root info : Node} {current : List Str}
    (hinfo : root.lstat current = some info) (hlink : ∀ target, info ≠ .link target)
    (parts : List Str) :
    Computes IsLocal (checkParts root current info parts) (info.reach parts) := by
  induction parts generalizing current info with
  | nil =>
    rw [checkParts, Node.reach]
    exact Computes.pure info
  | cons part parts ih =>
    rw [checkParts, lstat_concat, hinfo, Option.bind_some]
    -- a link is refused before it is followed, and anything but a directory has no entries
    cases info with
    | link target => exact absurd rfl (hlink target)
    | file | special => exact refuse_computes _
    | directory entries =>
      rw [entry_of_directory, Node.reach]
      cases hentry : Dict.get entries part with
      | none => exact refuse_computes _
      | some node =>
        cases node with
        | link target => exact refuse_computes _
        | file | directory | special =>
          refine ih ?_ (by simp)
          rw [lstat_concat, hinfo, Option.bind_some, entry_of_directory, hentry]

/-- Without a link on the way, `lstat` finds the node of the path. -/
theorem lstat_of_reach {node found : Node} {path : List Str} (h : node.reach path = some found) :
    node.lstat path = some found := by
  induction path generalizing node with
  | nil =>
    rw [Node.reach] at h
    exact h
  | cons name path ih =>
    cases node with
    | file | link | special => exact nomatch h
    | directory entries =>
      rw [Node.reach] at h
      cases hentry : Dict.get entries name with
      | none =>
        rw [hentry] at h
        exact nomatch h
      | some next =>
        have hnext : next.reach path = some found := by
          rw [hentry] at h
          -- a path that is reached has no link on its way
          cases next with
          | link target => exact nomatch h
          | file | directory | special => exact h
        show ((Node.directory entries).entry name).bind (fun n => n.lstat path) = _
        rw [entry_of_directory, hentry, Option.bind_some, ih hnext]

/-- The check of a path finds the regular file there, and nothing else. -/
theorem checkRegularPath_computes (root : Option Node) {relative : List Str}
    (hne : relative ≠ []) :
    Computes IsLocal (checkRegularPath root relative)
      ((regularFile root relative).bind fun _ => root) := by
  obtain ⟨part, parts, rfl⟩ := List.exists_cons_of_ne_nil hne
  cases root with
  | none => exact refuse_computes _
  | some root =>
    cases root with
    | file | link | special => exact refuse_computes _
    | directory entries =>
      have hparts := @checkParts_computes (.directory entries) (.directory entries) [] rfl (by simp)
        (part :: parts)
      rw [checkRegularPath, regularFile, Option.bind_some]
      cases hreach : (Node.directory entries).reach (part :: parts) with
      | none =>
        rw [hreach] at hparts
        exact hparts.bind (g := fun _ => none) (by simp)
      | some found =>
        rw [hreach] at hparts
        refine hparts.bind (g := fun _ => _) ?_
        rintro node h
        obtain rfl := Option.some.inj h
        -- the path leads somewhere, and only a regular file will do
        cases found with
        | file contents => exact Computes.pure _
        | directory | link | special => exact refuse_computes _

variable {W : World}

/-- Uninterrupted, the loop reads what is left, which the bound allows. -/
theorem readLoop_computes (hrun : ∀ n, W.interrupted n = false) {maxBytes fuel : ℕ}
    {rest fed : Bytes} (hfuel : rest.length < fuel) (hmax : fed.length + rest.length ≤ maxBytes) :
    Computes IsLocal (readLoop W maxBytes fuel rest fed) (some (fed ++ rest)) := by
  -- by induction on the fuel, which exceeds what is left to read
  induction fuel generalizing rest fed with
  | zero => exact absurd hfuel (Nat.not_lt_zero _)
  | succ fuel ih =>
    intro reader
    show Ensures (if W.interrupted reader.turns = true then _ else _) _ _ _
    rw [if_neg (by simp [hrun])]
    -- a read asks for one byte at least, so it comes back empty only at the end of the file
    have hwanted : 0 < min HASH_CHUNK_BYTES (maxBytes - fed.length + 1) :=
      Nat.lt_min.mpr ⟨by decide, Nat.succ_pos _⟩
    generalize min HASH_CHUNK_BYTES (maxBytes - fed.length + 1) = wanted at hwanted ⊢
    by_cases hrest : rest.take wanted = []
    · rw [if_pos hrest]
      have : rest = [] := by
        rcases List.take_eq_nil_iff.mp hrest with h | h
        · omega
        · exact h
      rw [this, List.append_nil]
      exact Computes.pure fed _
    · have hlength : (rest.take wanted).length ≤ rest.length := List.length_take_le' wanted rest
      rw [if_neg hrest, if_neg (by omega)]
      have hne : rest ≠ [] := fun h => hrest (by rw [h, List.take_nil])
      have hpos := List.length_pos_of_ne_nil hne
      have hstep := @ih (rest.drop wanted) (fed ++ rest.take wanted)
        (by rw [List.length_drop]; omega)
        (by simp only [List.length_append, List.length_take, List.length_drop]; omega)
      rw [List.append_assoc, List.take_append_drop] at hstep
      exact hstep _

/-- The contents of a regular file, when their number is one that is looked for. -/
def sizedFile (root : Option Node) (path : List Str) (maxBytes : ℕ) (expectedSize : Option ℕ) :
    Option Bytes :=
  (regularFile root path).filter fun contents =>
    0 < contents.length ∧ contents.length ≤ maxBytes ∧ expectedSize.all (· = contents.length)

theorem sizedFile_eq_some {root : Option Node} {path : List Str} {maxBytes : ℕ}
    {expectedSize : Option ℕ} {contents : Bytes} :
    sizedFile root path maxBytes expectedSize = some contents ↔
      regularFile root path = some contents ∧ 0 < contents.length ∧
        contents.length ≤ maxBytes ∧ ∀ size ∈ expectedSize, size = contents.length := by
  rw [sizedFile, Option.filter_eq_some_iff]
  simp [Option.all_eq_true]

theorem sizedFile_eq_none {root : Option Node} {path : List Str} {maxBytes : ℕ}
    {expectedSize : Option ℕ} {contents : Bytes} (hfile : regularFile root path = some contents)
    (h : 0 < contents.length → contents.length ≤ maxBytes →
      ¬∀ size ∈ expectedSize, size = contents.length) :
    sizedFile root path maxBytes expectedSize = none := by
  rw [Option.eq_none_iff_forall_ne_some]
  intro bytes hbytes
  obtain ⟨hfound, hpos, hmax, hall⟩ := sizedFile_eq_some.mp hbytes
  obtain rfl := Option.some.inj (hfile.symm.trans hfound)
  exact h hpos hmax hall

theorem exists_of_regularFile {root : Option Node} {path : List Str} {contents : Bytes}
    (h : regularFile root path = some contents) :
    ∃ node, root = some node ∧ node.reach path = some (.file contents) := by
  cases root with
  | none => exact nomatch h
  | some node =>
    refine ⟨node, rfl, ?_⟩
    rw [regularFile, Option.bind_some] at h
    cases hreach : node.reach path with
    | none =>
      rw [hreach] at h
      exact nomatch h
    | some found =>
      rw [hreach] at h
      cases found with
      | file bytes => rw [Option.some.inj h]
      | directory | link | special => exact nomatch h

theorem hashFile_computes (hrun : ∀ n, W.interrupted n = false) (root : Option Node)
    {relative : List Str} (hne : relative ≠ []) (maxBytes : ℕ) (expectedSize : Option ℕ) :
    Computes IsLocal (hashFile W root relative maxBytes expectedSize)
      ((sizedFile root relative maxBytes expectedSize).map fun contents =>
        (sha256Hex contents, if maxBytes = MAX_MANIFEST_BYTES then some contents else none,
          contents.length)) := by
  have hcheck := checkRegularPath_computes root hne
  cases hfile : regularFile root relative with
  | none =>
    rw [hfile] at hcheck
    rw [sizedFile, hfile]
    exact hcheck.bind (g := fun _ => none) (by simp)
  | some contents =>
    obtain ⟨node, rfl, hnode⟩ := exists_of_regularFile hfile
    rw [hfile] at hcheck
    refine hcheck.bind (g := fun _ => _) ?_
    intro root hroot
    obtain rfl := Option.some.inj hroot
    rw [lstat_of_reach hnode]
    dsimp only
    -- the size is tested before the file is read, and the expected one first of all
    by_cases hsize : contents = [] ∨ maxBytes < contents.length
    · rw [if_pos hsize, sizedFile_eq_none hfile fun hpos hmax _ => ?_]
      · exact refuse_computes _
      · rcases hsize with rfl | hlarge
        · exact Nat.lt_irrefl _ hpos
        · exact absurd hmax (Nat.not_le.mpr hlarge)
    · obtain ⟨hnil, hmax⟩ := not_or.mp hsize
      rw [if_neg hsize]
      by_cases hexpected : expectedSize.any (· ≠ contents.length) = true
      · rw [if_pos hexpected, sizedFile_eq_none hfile fun _ _ hall => ?_]
        · exact refuse_computes _
        · obtain ⟨size, hsome, hdiffer⟩ := (Option.any_eq_true _ _).mp hexpected
          exact of_decide_eq_true hdiffer (hall size hsome)
      · have hall : ∀ size ∈ expectedSize, size = contents.length := by
          intro size hsome
          by_contra hdiffer
          exact hexpected ((Option.any_eq_true _ _).mpr ⟨size, hsome, by simpa using hdiffer⟩)
        rw [if_neg hexpected, sizedFile_eq_some.mpr ⟨hfile, List.length_pos_of_ne_nil hnil,
          Nat.not_lt.mp hmax, hall⟩]
        -- nothing changed in between, so what was read has the size that was found
        refine (readLoop_computes hrun (Nat.lt_succ_self _)
          (by simpa using Nat.not_lt.mp hmax)).bind (g := fun _ => _) ?_
        intro fed hfed
        rw [List.nil_append] at hfed
        obtain rfl := Option.some.inj hfed
        rw [if_neg (by simp), if_neg hexpected]
        exact Computes.pure _

/-! ### Records -/

/-- The three guards accept exactly the values within their bounds, and so does a walk that
takes the pending values in any other order. -/
theorem structure_guards (value : Json) :
    (enforceJsonStructureLimit value = true ↔
      value.depth ≤ MAX_JSON_DEPTH ∧ value.size ≤ MAX_JSON_NODES) ∧
    (withinStructure value = true ↔
      value.depth ≤ MAX_JSON_DEPTH ∧ value.size ≤ MAX_JSON_NODES) ∧
    (withinManifest value = true ↔
      value.depth ≤ MAX_MANIFEST_DEPTH ∧ value.size ≤ MAX_MANIFEST_NODES) ∧
    ∀ maxDepth maxNodes verdict,
      TreeWalk.Walk Json.children maxDepth maxNodes [(value, 0)] 0 verdict ↔
        verdict = decide (value.depth ≤ maxDepth ∧ value.size ≤ maxNodes) :=
  ⟨value.walk_iff _ _, value.walk_iff _ _, value.walk_iff _ _,
    fun _ _ _ => TreeWalk.walk_root_iff Json.structureMeasure⟩

theorem mapM_eq_some_iff {α β : Type} {f : α → Option β} {xs : List α} {ys : List β} :
    xs.mapM f = some ys ↔ List.Forall₂ (fun x y => f x = some y) xs ys := by
  induction xs generalizing ys with
  | nil => simp [eq_comm]
  | cons x xs ih =>
    rw [List.mapM_cons, List.forall₂_cons_left_iff]
    simp only [Option.bind_eq_bind, Option.bind_eq_some_iff, Option.pure_def, Option.some.injEq,
      ih, eq_comm (b := ys)]
    exact exists_congr fun _ => exists_and_left.symm

theorem asObject_eq_some {v : Json} {d : Dict} : asObject v = some d ↔ v = .obj d := by
  cases v <;> simp [asObject]

theorem mapM_asObject {values : List Json} {layers : List Dict} :
    values.mapM asObject = some layers ↔ values = layers.map .obj := by
  rw [mapM_eq_some_iff, ← List.forall₂_eq_eq_eq, List.forall₂_map_right_iff]
  simp only [asObject_eq_some]

theorem parseManifest_eq_some {raw : Bytes} {config : Dict} {layers : List Dict} :
    parseManifest raw = some (config, layers) ↔ IsManifest raw config layers := by
  constructor
  · intro h
    obtain ⟨text, htext, h⟩ := Option.bind_eq_some_iff.mp h
    obtain ⟨value, hvalue, h⟩ := Option.bind_eq_some_iff.mp h
    obtain ⟨hwithin, h⟩ := Option.ite_none_left_eq_some.mp h
    obtain ⟨fields, hfields, hchecks⟩ := Option.bind_eq_some_iff.mp h
    obtain ⟨hversion, hparts⟩ := Option.ite_none_left_eq_some.mp hchecks
    obtain rfl := asObject_eq_some.mp hfields
    -- the bounds of the walk are those on depth and size
    obtain ⟨hdepth, hsize⟩ := (Json.walk_iff _ _ _).mp (show withinManifest _ = true by
      simpa using hwithin)
    obtain ⟨version, hget, htwo⟩ := (Option.any_eq_true _ _).mp (by simpa using hversion)
    split at hparts
    · next config' values hconfig hlayers =>
      obtain ⟨hlength, hread⟩ := Option.ite_none_left_eq_some.mp hparts
      obtain ⟨layers', hmap, heq⟩ := Option.map_eq_some_iff.mp hread
      obtain ⟨rfl, rfl⟩ := Prod.mk.inj heq
      obtain rfl := mapM_asObject.mp hmap
      rw [List.length_map] at hlength
      exact ⟨text, fields, version, htext, hvalue, hdepth, hsize, hget, htwo, hconfig, hlayers,
        by omega, by omega⟩
    · exact nomatch hparts
  · rintro ⟨text, fields, version, htext, hvalue, hdepth, hsize, hget, htwo, hconfig, hlayers,
      hmin, hmax⟩
    have hwithin : withinManifest (.obj fields) = true :=
      (Json.walk_iff _ _ _).mpr ⟨hdepth, hsize⟩
    rw [parseManifest, htext, Option.bind_eq_bind, Option.bind_some, hvalue, Option.bind_eq_bind,
      Option.bind_some, if_neg (by simp [hwithin])]
    show (if (Dict.get fields (lit "schemaVersion")).any isTwo = false then none else _) = _
    rw [if_neg (by simp [hget, htwo]), hconfig, hlayers]
    dsimp only
    rw [if_neg (by rw [List.length_map]; omega), mapM_asObject.mpr rfl]
    rfl

theorem startsWith_iff {s w : Str} : Str.startsWith s w = true ↔ w ++ s.drop w.length = s := by
  rw [Str.startsWith, List.isPrefixOf_iff_prefix, List.prefix_iff_eq_append]

theorem descriptor_eq_some {record : Dict} {d : Descriptor} :
    descriptor record = some d ↔ Describes record d := by
  constructor
  · intro h
    rw [descriptor] at h
    split at h
    · next digest size mediaType hdigest hsize hmedia =>
      -- the four tests are the fields of the descriptor
      by_cases hvalid : Str.startsWith digest (lit "sha256:") = true ∧
          isHexDigest (digest.drop 7) = true ∧ 0 < size ∧ size ≤ MAX_BLOB_BYTES ∧
          Str.startsWith mediaType (lit "application/vnd.") = true
      · rw [dif_pos hvalid] at h
        obtain rfl := Option.some.inj h
        refine ⟨?_, ?_, hmedia⟩
        · rw [hdigest]
          exact congrArg (some ∘ Json.str) (startsWith_iff.mp hvalid.1).symm
        · rw [hsize, Json.int, Int.toNat_of_nonneg hvalid.2.2.1.le]
      · rw [dif_neg hvalid] at h
        exact nomatch h
    · exact nomatch h
  · rintro ⟨hdigest, hsize, hmedia⟩
    have hpos := d.pos
    have hbounded := d.bounded
    rw [descriptor, hdigest, hsize, hmedia]
    dsimp only [Json.int]
    rw [dif_pos ⟨List.isPrefixOf_iff_prefix.mpr (List.prefix_append _ _), d.isDigest, by omega,
      by omega, d.vendor⟩]
    rfl

/-! ### Blobs -/

/-- The descriptor of a record whose blob is in the store. -/
def storeBlob (root : Option Node) (record : Dict) : Option Descriptor :=
  (descriptor record).filter fun d =>
    ((sizedFile root (blobPath d.digest) MAX_BLOB_BYTES (some d.size)).map sha256Hex).any
      (· = d.digest)

theorem storeBlob_eq_some {root : Option Node} {record : Dict} {d : Descriptor} :
    storeBlob root record = some d ↔ Holds root record d := by
  rw [storeBlob, Option.filter_eq_some_iff, descriptor_eq_some, Option.any_map, Option.any_eq_true]
  constructor
  · rintro ⟨hdescribes, contents, hfile, hdigest⟩
    obtain ⟨hfound, _, _, hsize⟩ := sizedFile_eq_some.mp hfile
    exact ⟨hdescribes, contents, hfound, (hsize d.size rfl).symm, of_decide_eq_true hdigest⟩
  · rintro ⟨hdescribes, contents, hfound, hsize, hdigest⟩
    have hpos := d.pos
    have hbounded := d.bounded
    refine ⟨hdescribes, contents, sizedFile_eq_some.mpr ⟨hfound, by omega, by omega, ?_⟩,
      decide_eq_true hdigest⟩
    intro size hmem
    obtain rfl := Option.some.inj hmem
    exact hsize.symm

/-- The bytes hashed after all blobs, when the declared sizes stay in the limit. -/
def storeBlobs (root : Option Node) (records : List Dict) (totalDeclared totalHashed : ℕ) :
    Option ℕ :=
  (records.mapM (storeBlob root)).bind fun ds =>
    if totalDeclared + (ds.map Descriptor.size).sum ≤ MAX_TOTAL_BLOB_BYTES then
      some (totalHashed + (ds.map Descriptor.size).sum)
    else none

/-- One record more: its blob first, and then the others. -/
theorem storeBlobs_cons (root : Option Node) (record : Dict) (records : List Dict)
    (totalDeclared totalHashed : ℕ) :
    storeBlobs root (record :: records) totalDeclared totalHashed =
      (storeBlob root record).bind fun d =>
        storeBlobs root records (totalDeclared + d.size) (totalHashed + d.size) := by
  rw [storeBlobs, List.mapM_cons]
  cases storeBlob root record with
  | none => rfl
  | some d =>
    rw [Option.bind_eq_bind, Option.bind_some, Option.bind_some, storeBlobs]
    cases records.mapM (storeBlob root) with
    | none => rfl
    | some ds =>
      show (if _ then _ else _) = if _ then _ else _
      simp only [List.map_cons, List.sum_cons, Nat.add_assoc]

/-- The limit is passed as soon as one declared size passes it. -/
theorem storeBlobs_eq_none {root : Option Node} {records : List Dict} {totalDeclared : ℕ}
    (h : MAX_TOTAL_BLOB_BYTES < totalDeclared) (totalHashed : ℕ) :
    storeBlobs root records totalDeclared totalHashed = none := by
  rw [storeBlobs, Option.bind_eq_none_iff]
  intro ds _
  rw [if_neg (by omega)]

theorem blobPath_ne_nil (digest : Str) : blobPath digest ≠ [] := List.cons_ne_nil _ _

theorem hashBlobs_computes (hrun : ∀ n, W.interrupted n = false) (root : Option Node)
    (records : List Dict) (totalDeclared totalHashed : ℕ)
    (hdeclared : totalDeclared ≤ MAX_TOTAL_BLOB_BYTES) :
    Computes IsLocal (hashBlobs W root records totalDeclared totalHashed)
      (storeBlobs root records totalDeclared totalHashed) := by
  -- by induction on the records; the declared total is tested before a blob is read
  induction records generalizing totalDeclared totalHashed with
  | nil =>
    rw [hashBlobs, storeBlobs, List.mapM_nil]
    show Computes _ _ (if totalDeclared + 0 ≤ _ then _ else _)
    rw [Nat.add_zero, if_pos hdeclared]
    exact Computes.pure _
  | cons record records ih =>
    rw [hashBlobs, storeBlobs_cons, storeBlob]
    cases hrecord : descriptor record with
    | none => exact refuse_computes _
    | some d =>
      dsimp only
      by_cases htotal : MAX_TOTAL_BLOB_BYTES < totalDeclared + d.size
      · rw [if_pos htotal, Option.bind_eq_none_iff.mpr]
        · exact refuse_computes _
        · intro d' hd'
          obtain rfl := Option.some.inj (Option.filter_eq_some_iff.mp hd').1
          exact storeBlobs_eq_none htotal _
      · rw [if_neg htotal]
        have hfile := hashFile_computes hrun root (blobPath_ne_nil d.digest) MAX_BLOB_BYTES
          (some d.size)
        cases hsized : sizedFile root (blobPath d.digest) MAX_BLOB_BYTES (some d.size) with
        | none =>
          rw [hsized] at hfile
          rw [Option.filter_some, if_neg (by simp [hsized])]
          exact hfile.bind (g := fun _ => none) (by simp)
        | some contents =>
          -- the bytes that were hashed are as many as were declared
          have hsize := (sizedFile_eq_some.mp hsized).2.2.2 d.size rfl
          rw [hsized] at hfile
          refine hfile.bind (g := fun _ => Option.bind _ _) ?_
          rintro _ hr
          obtain rfl := Option.some.inj hr
          by_cases hdigest : sha256Hex contents = d.digest
          · rw [if_neg (by simpa using hdigest), Option.filter_some,
              if_pos (by simpa [hsized] using hdigest)]
            show Computes _ (hashBlobs W root records _ (totalHashed + contents.length)) _
            rw [← hsize]
            exact ih _ _ (Nat.not_lt.mp htotal)
          · rw [if_pos hdigest, Option.filter_some, if_neg (by simpa [hsized] using hdigest)]
            exact refuse_computes _

/-! ### The check -/

/-- The report on a store with the manifest `raw`, when nothing interrupts the check. -/
def admitManifest (W : World) (root : Option Node) (manifestPin weightPin : Str) (raw : Bytes) :
    Option Report :=
  if sha256Hex raw ≠ manifestPin then none
  else
    (parseManifest raw).bind fun (config, layers) =>
      match layers.filter isModelLayer with
      | [record] =>
        (descriptor record).bind fun weight =>
          if weight.digest ≠ weightPin then none
          else
            (storeBlobs root (config :: layers) 0 raw.length).map fun hashed =>
              ⟨W.startedAt, W.observedAt, sha256Hex raw, weight.digest,
                (config :: layers).length, hashed⟩
      | _ => none

/-- The report, when nothing interrupts the check. -/
def admission (W : World) (root : Option Node) (model manifestPin weightPin : Str) :
    Option Report :=
  (manifestRelativePath model).bind fun path =>
    (sizedFile root path MAX_MANIFEST_BYTES none).bind (admitManifest W root manifestPin weightPin)

theorem manifestRelativePath_ne_nil {model : Str} {path : List Str}
    (h : manifestRelativePath model = some path) : path ≠ [] := by
  obtain ⟨segments, rfl, _⟩ := manifestRelativePath_spec h
  exact List.cons_ne_nil _ _

theorem openRoot_eq (W : World) (root : StoreRoot) :
    openRoot W root.text = pure (W.root root.text) := by
  rw [openRoot, if_neg]
  rw [List.any_eq_true]
  rintro ⟨c, hc, h⟩
  have := root.encodable c hc
  have := of_decide_eq_true h
  omega

theorem verifyStoreBytes'_computes (hrun : ∀ n, W.interrupted n = false) (root : StoreRoot)
    (model manifestPin weightPin : Str) :
    Computes IsLocal (verifyStoreBytes' W model manifestPin weightPin root.text)
      (admission W (W.root root.text) model manifestPin weightPin) := by
  rw [verifyStoreBytes', if_neg (by simp [root.absolute]), admission]
  cases hpath : manifestRelativePath model with
  | none => exact refuse_computes _
  | some path =>
    rw [openRoot_eq]
    -- the manifest is read whole and kept, since it is asked for with its own bound
    have hfile := hashFile_computes hrun (W.root root.text) (manifestRelativePath_ne_nil hpath)
      MAX_MANIFEST_BYTES none
    rw [Option.bind_some]
    cases hsized : sizedFile (W.root root.text) path MAX_MANIFEST_BYTES none with
    | none =>
      rw [hsized] at hfile
      exact hfile.bind (g := fun _ => none) (by simp)
    | some raw =>
      rw [hsized] at hfile
      refine hfile.bind (g := fun _ => admitManifest W _ manifestPin weightPin raw) ?_
      intro r hr
      obtain rfl := Option.some.inj hr
      dsimp only
      rw [if_pos rfl, Option.getD_some, admitManifest]
      -- from here on the tests of the source and of the specification are the same, one by one
      by_cases hdigest : sha256Hex raw ≠ manifestPin
      · rw [if_pos hdigest, if_pos hdigest]
        exact refuse_computes _
      · rw [if_neg hdigest, if_neg hdigest]
        cases parseManifest raw with
        | none => exact refuse_computes _
        | some manifest =>
          rw [Option.bind_some]
          dsimp only
          rcases manifest.2.filter isModelLayer with _ | ⟨record, _ | ⟨other, others⟩⟩
          · exact refuse_computes _
          · dsimp only
            cases descriptor record with
            | none => exact refuse_computes _
            | some weight =>
              rw [Option.bind_some]
              dsimp only
              by_cases hweight : weight.digest ≠ weightPin
              · rw [if_pos hweight, if_pos hweight]
                exact refuse_computes _
              · rw [if_neg hweight, if_neg hweight, Option.map_eq_bind]
                exact (hashBlobs_computes hrun _ _ _ _ (Nat.zero_le _)).bind
                  fun hashed _ => Computes.pure _
          · exact refuse_computes _

/-- An empty file is no manifest. -/
theorem not_isManifest_nil {config : Dict} {layers : List Dict} : ¬IsManifest [] config layers := by
  rintro ⟨text, fields, version, htext, hfields, _⟩
  obtain rfl := Option.some.inj htext
  exact nomatch hfields

theorem storeBlobs_eq_some {root : Option Node} {records : List Dict} {hashed total : ℕ} :
    storeBlobs root records 0 hashed = some total ↔
      ∃ ds, List.Forall₂ (Holds root) records ds ∧
        (ds.map Descriptor.size).sum ≤ MAX_TOTAL_BLOB_BYTES ∧
        hashed + (ds.map Descriptor.size).sum = total := by
  rw [storeBlobs, Option.bind_eq_some_iff]
  simp only [mapM_eq_some_iff, storeBlob_eq_some, Nat.zero_add, Option.ite_none_right_eq_some,
    Option.some.injEq]

theorem admitManifest_eq_some {root : Option Node} {manifestPin weightPin : Str} {raw : Bytes}
    {report : Report} :
    admitManifest W root manifestPin weightPin raw = some report ↔
      sha256Hex raw = manifestPin ∧ ∃ config layers record weight descriptors,
        IsManifest raw config layers ∧ layers.filter isModelLayer = [record] ∧
        Describes record weight ∧ weight.digest = weightPin ∧
        List.Forall₂ (Holds root) (config :: layers) descriptors ∧
        (descriptors.map Descriptor.size).sum ≤ MAX_TOTAL_BLOB_BYTES ∧
        report = ⟨W.startedAt, W.observedAt, manifestPin, weightPin, (config :: layers).length,
          raw.length + (descriptors.map Descriptor.size).sum⟩ := by
  rw [admitManifest, Option.ite_none_left_eq_some, not_not]
  refine and_congr_right fun hpin => ?_
  rw [hpin]
  constructor
  · intro h
    obtain ⟨⟨config, layers⟩, hmanifest, hmodels⟩ := Option.bind_eq_some_iff.mp h
    dsimp only at hmodels
    split at hmodels
    · next record hrecord =>
      obtain ⟨weight, hweight, hchecked⟩ := Option.bind_eq_some_iff.mp hmodels
      obtain ⟨hdigest, hblobs⟩ := Option.ite_none_left_eq_some.mp hchecked
      obtain ⟨total, htotal, rfl⟩ := Option.map_eq_some_iff.mp hblobs
      -- the blobs are held, and their sizes stay within the total
      obtain ⟨ds, hholds, hsum, rfl⟩ := storeBlobs_eq_some.mp htotal
      have hdigest := not_not.mp hdigest
      exact ⟨config, layers, record, weight, ds, parseManifest_eq_some.mp hmanifest, hrecord,
        descriptor_eq_some.mp hweight, hdigest, hholds, hsum, by rw [hdigest]⟩
    · exact nomatch hmodels
  · rintro ⟨config, layers, record, weight, ds, hmanifest, hrecord, hweight, hdigest, hholds, hsum,
      rfl⟩
    rw [parseManifest_eq_some.mpr hmanifest, Option.bind_some]
    dsimp only
    rw [hrecord]
    dsimp only
    rw [descriptor_eq_some.mpr hweight, Option.bind_some, if_neg (not_not.mpr hdigest),
      storeBlobs_eq_some.mpr ⟨ds, hholds, hsum, rfl⟩, hdigest]
    rfl

/-- A report says what is asked for, and there is one exactly for what the store holds. -/
theorem admission_eq_some {root : Option Node} {model manifestPin weightPin : Str} :
    (∃ report, admission W root model manifestPin weightPin = some report) ↔
      Admitted root model manifestPin weightPin := by
  constructor
  · rintro ⟨report, h⟩
    obtain ⟨path, hpath, h⟩ := Option.bind_eq_some_iff.mp h
    obtain ⟨raw, hraw, h⟩ := Option.bind_eq_some_iff.mp h
    obtain ⟨hfile, _, hmax, _⟩ := sizedFile_eq_some.mp hraw
    obtain ⟨hpin, config, layers, record, weight, ds, hmanifest, hrecord, hweight, hdigest, hholds,
      hsum, _⟩ := admitManifest_eq_some.mp h
    exact ⟨path, raw, config, layers, weight, ds, hpath, ⟨hfile, hmax, hpin⟩, hmanifest,
      ⟨record, hrecord, hweight⟩, hdigest, hholds, hsum⟩
  · rintro ⟨path, raw, config, layers, weight, ds, hpath, ⟨hfile, hmax, hpin⟩, hmanifest,
      ⟨record, hrecord, hweight⟩, hdigest, hholds, hsum⟩
    have hne : raw ≠ [] := by
      rintro rfl
      exact not_isManifest_nil hmanifest
    refine ⟨_, Option.bind_eq_some_iff.mpr ⟨path, hpath, Option.bind_eq_some_iff.mpr ⟨raw, ?_,
      admitManifest_eq_some.mpr ⟨hpin, config, layers, record, weight, ds, hmanifest, hrecord,
        hweight, hdigest, hholds, hsum, rfl⟩⟩⟩⟩
    exact sizedFile_eq_some.mpr ⟨hfile, List.length_pos_of_ne_nil hne, hmax, nofun⟩

theorem admission_pins {root : Option Node} {model manifestPin weightPin : Str} {report : Report}
    (h : admission W root model manifestPin weightPin = some report) :
    report.manifestSha256 = manifestPin ∧ report.weightSha256 = weightPin := by
  obtain ⟨path, hpath, h⟩ := Option.bind_eq_some_iff.mp h
  obtain ⟨raw, hraw, h⟩ := Option.bind_eq_some_iff.mp h
  obtain ⟨_, config, layers, record, weight, ds, _, _, _, _, _, _, rfl⟩ :=
    admitManifest_eq_some.mp h
  exact ⟨rfl, rfl⟩

/-! ### The slot -/

/-- No call of the check moves the slots. -/
def SameSlots (r r' : Reader) : Prop := r.slots = r'.slots

instance : IsPreorder Reader SameSlots where
  refl _ := rfl
  trans _ _ _ h h' := h.trans h'

theorem refuse_sameSlots {α : Type} (state : String) : Moves SameSlots (refuse state : Reading α) :=
  Moves.throw _

theorem checkParts_sameSlots (root info : Node) (current parts : List Str) :
    Moves SameSlots (checkParts root current info parts) := by
  induction parts generalizing current info with
  | nil => exact Moves.pure _
  | cons part parts ih =>
    rw [checkParts]
    split
    · exact refuse_sameSlots _
    · exact refuse_sameSlots _
    · exact ih _ _

theorem checkRegularPath_sameSlots (root : Option Node) (relative : List Str) :
    Moves SameSlots (checkRegularPath root relative) := by
  rw [checkRegularPath.eq_def]
  split
  · exact refuse_sameSlots _
  · refine (checkParts_sameSlots _ _ _ _).bind fun info => ?_
    split
    · exact Moves.pure _
    · exact refuse_sameSlots _
  · exact refuse_sameSlots _

theorem readLoop_sameSlots (W : World) (maxBytes fuel : ℕ) (rest fed : Bytes) :
    Moves SameSlots (readLoop W maxBytes fuel rest fed) := by
  induction fuel generalizing rest fed with
  | zero => exact Moves.pure _
  | succ fuel ih =>
    intro reader
    refine Ensures.mono (Q := fun _ t => SameSlots reader t) (E := fun _ t => SameSlots reader t)
      ?_ (fun _ _ => id) (fun _ _ => id)
    -- the turn is counted first, which leaves the slots alone
    show Ensures (if W.interrupted reader.turns = true then _ else _)
      { reader with turns := reader.turns + 1 } _ _
    refine Moves.ite (T := SameSlots) (fun _ => refuse_sameSlots _) (fun _ => ?_) _
    refine Moves.ite (fun _ => Moves.pure _) fun _ => ?_
    exact Moves.ite (fun _ => refuse_sameSlots _) fun _ => ih _ _

theorem hashFile_sameSlots (W : World) (root : Option Node) (relative : List Str) (maxBytes : ℕ)
    (expectedSize : Option ℕ) :
    Moves SameSlots (hashFile W root relative maxBytes expectedSize) := by
  refine (checkRegularPath_sameSlots root relative).bind fun node => ?_
  split
  · exact refuse_sameSlots _
  · exact refuse_sameSlots _
  · refine Moves.ite (fun _ => refuse_sameSlots _) fun _ => ?_
    refine Moves.ite (fun _ => refuse_sameSlots _) fun _ => ?_
    refine (readLoop_sameSlots W _ _ _ _).bind fun fed => ?_
    refine Moves.ite (fun _ => refuse_sameSlots _) fun _ => ?_
    exact Moves.ite (fun _ => refuse_sameSlots _) fun _ => Moves.pure _
  · exact refuse_sameSlots _

theorem hashBlobs_sameSlots (W : World) (root : Option Node) (records : List Dict)
    (totalDeclared totalHashed : ℕ) :
    Moves SameSlots (hashBlobs W root records totalDeclared totalHashed) := by
  induction records generalizing totalDeclared totalHashed with
  | nil => exact Moves.pure _
  | cons record records ih =>
    rw [hashBlobs]
    split
    · exact refuse_sameSlots _
    · refine Moves.ite (fun _ => refuse_sameSlots _) fun _ => ?_
      refine (hashFile_sameSlots W _ _ _ _).bind fun r => ?_
      exact Moves.ite (fun _ => refuse_sameSlots _) fun _ => ih _ _

theorem verifyStoreBytes'_sameSlots (W : World) (model manifestPin weightPin storeRoot : Str) :
    Moves SameSlots (verifyStoreBytes' W model manifestPin weightPin storeRoot) := by
  refine Moves.ite (fun _ => refuse_sameSlots _) fun _ => ?_
  split
  · exact refuse_sameSlots _
  · refine Moves.bind (Moves.ite (fun _ => Moves.throw _) fun _ => Moves.pure _) fun root => ?_
    refine (hashFile_sameSlots W _ _ _ _).bind fun r => ?_
    refine Moves.ite (fun _ => refuse_sameSlots _) fun _ => ?_
    split
    · exact refuse_sameSlots _
    · split
      · split
        · exact refuse_sameSlots _
        · refine Moves.ite (fun _ => refuse_sameSlots _) fun _ => ?_
          exact (hashBlobs_sameSlots W _ _ _ _).bind fun total => Moves.pure _
      · exact refuse_sameSlots _

/-- The slot is given back at either exit. -/
theorem withSlot_slots {α : Type} {x : Reading α} (h : Moves SameSlots x) (reader : Reader) :
    (final (withSlot x reader)).slots = reader.slots := by
  rw [withSlot]
  split_ifs with hbusy
  · rfl
  · have hmoves : reader.slots - 1 = (final (x { reader with slots := reader.slots - 1 })).slots :=
      h.final { reader with slots := reader.slots - 1 }
    cases hx : x { reader with slots := reader.slots - 1 } with
    | ok a t =>
      rw [hx] at hmoves
      show t.slots + 1 = reader.slots
      have : reader.slots - 1 = t.slots := hmoves
      omega
    | error e t =>
      rw [hx] at hmoves
      show t.slots + 1 = reader.slots
      have : reader.slots - 1 = t.slots := hmoves
      omega

/-- With the slot free the check runs, from a state with the slot taken. -/
theorem withSlot_computes {α : Type} {x : Reading α} {o : Option α} (h : Computes IsLocal x o)
    {reader : Reader} (hfree : reader.slots ≠ 0) :
    Ensures (withSlot x) reader (fun a _ => o = some a) (fun e _ => o = none ∧ IsLocal e) := by
  have hx := h { reader with slots := reader.slots - 1 }
  rw [Ensures] at hx ⊢
  rw [withSlot, if_neg hfree]
  cases hrun : x { reader with slots := reader.slots - 1 } with
  | ok a t =>
    rw [hrun] at hx
    exact hx
  | error e t =>
    rw [hrun] at hx
    exact hx

/-- With the slot free and no interruption, a match is returned exactly for what the store
holds, and a `LocalStoreError` is raised for all else; the slot is given back on every path. -/
theorem local_store_admission (W : World) (root : StoreRoot) (model manifestPin weightPin : Str)
    (reader : Reader) (hfree : reader.slots = 1) :
    ((∀ n, W.interrupted n = false) →
      (Admitted (W.root root.text) model manifestPin weightPin →
        ∃ report after, verifyStoreBytes W model manifestPin weightPin root.text reader =
          .ok report after ∧ report.manifestSha256 = manifestPin ∧
          report.weightSha256 = weightPin) ∧
      (¬Admitted (W.root root.text) model manifestPin weightPin →
        ∃ state after, verifyStoreBytes W model manifestPin weightPin root.text reader =
          .error (.localStore state) after)) ∧
    (final (verifyStoreBytes W model manifestPin weightPin root.text reader)).slots = 1 := by
  -- an uninterrupted run computes the admission; the slot is given back in every run
  refine ⟨fun hrun => ?_, ?_⟩
  · have hcheck := @withSlot_computes _ _ _ (verifyStoreBytes'_computes hrun root model manifestPin
      weightPin) reader (by omega)
    rw [← verifyStoreBytes, Ensures] at hcheck
    cases hverify : verifyStoreBytes W model manifestPin weightPin root.text reader with
    | ok report after =>
      rw [hverify] at hcheck
      have hpins := admission_pins hcheck
      exact ⟨fun _ => ⟨report, after, rfl, hpins⟩,
        fun hnot => absurd (admission_eq_some.mp ⟨report, hcheck⟩) hnot⟩
    | error e after =>
      rw [hverify] at hcheck
      obtain ⟨hnone, state, rfl⟩ := hcheck
      refine ⟨fun hadmitted => ?_, fun _ => ⟨state, after, rfl⟩⟩
      obtain ⟨report, hreport⟩ := admission_eq_some (W := W).mpr hadmitted
      cases hnone.symm.trans hreport
  · rw [verifyStoreBytes, withSlot_slots (verifyStoreBytes'_sameSlots W _ _ _ _), hfree]

/-! A store with one blob, which is the config and the model layer. -/

/-- The blob `a`. -/
def oneByte : Bytes := [97]

def oneByteDigest : Str := lit "ca978112ca1bbdcafac231b39a23dc4da786eff8147c4e72b9807785afee48bb"

/-- A record of the blob. -/
def oneByteRecord (mediaType : String) : Dict :=
  [(lit "mediaType", mediaType), (lit "digest", .str (lit "sha256:" ++ oneByteDigest)),
    (lit "size", .int 1)]

def oneByteManifest : Bytes :=
  ((dumps ⟨true, false, true, false⟩ (.obj [(lit "schemaVersion", .int 2),
    (lit "config", .obj (oneByteRecord "application/vnd.a")),
    (lit "layers", .arr [.obj (oneByteRecord "application/vnd.ollama.image.model")])])).bind
      utf8).getD []

def oneByteStore : Node :=
  .directory [
    (lit "manifests", .directory [(lit "registry.ollama.ai", .directory [(lit "library",
      .directory [(lit "a", .directory [(lit "latest", .file oneByteManifest)])])])]),
    (lit "blobs", .directory [(lit "sha256-" ++ oneByteDigest, .file oneByte)])]

/-- What is found at the root `/s`. -/
def oneByteWorld : World := ⟨fun _ => some oneByteStore, [], [], fun _ => false⟩

def oneByteRoot : StoreRoot := ⟨lit "/s", rfl, by
  intro c hc
  have hall : (lit "/s").all (fun c => decide (c.val ≠ 0 ∧ c.val < 0xD800)) = true := by decide
  have := of_decide_eq_true (List.all_eq_true.mp hall c hc)
  exact ⟨this.1, .inl this.2⟩⟩

/-- What a record of the blob describes. -/
def oneByteDescriptor (mediaType : String)
    (vendor : Str.startsWith (lit mediaType) (lit "application/vnd.") = true) : Descriptor :=
  ⟨oneByteDigest, 1, lit mediaType, by decide +kernel, by decide, by decide, vendor⟩

theorem sha256_oneByte : sha256Hex oneByte = oneByteDigest := by decide +kernel

theorem oneByteStore_holds {mediaType : String}
    (vendor : Str.startsWith (lit mediaType) (lit "application/vnd.") = true) :
    Holds (some oneByteStore) (oneByteRecord mediaType) (oneByteDescriptor mediaType vendor) where
  digest := rfl
  size := rfl
  mediaType := rfl
  blob := ⟨oneByte, rfl, rfl, sha256_oneByte⟩

theorem oneByteStore_admitted :
    Admitted (some oneByteStore) (lit "a") (sha256Hex oneByteManifest) oneByteDigest := by
  have hmodel : Str.startsWith (lit "application/vnd.ollama.image.model")
    (lit "application/vnd.") = true := by decide
  have hconfig : Str.startsWith (lit "application/vnd.a") (lit "application/vnd.") = true := by
    decide
  have hparse : parseManifest oneByteManifest = some (oneByteRecord "application/vnd.a",
    [oneByteRecord "application/vnd.ollama.image.model"]) := by decide +kernel
  have hpath : manifestRelativePath (lit "a") = some [lit "manifests", lit "registry.ollama.ai",
    lit "library", lit "a", lit "latest"] := by decide
  have hsize : oneByteManifest.length ≤ MAX_MANIFEST_BYTES := by decide +kernel
  exact ⟨_, oneByteManifest, _, _, oneByteDescriptor _ hmodel,
    [oneByteDescriptor _ hconfig, oneByteDescriptor _ hmodel], hpath, ⟨rfl, hsize, rfl⟩,
    parseManifest_eq_some.mp hparse, ⟨_, rfl, (oneByteStore_holds hmodel).toDescribes⟩, rfl,
    .cons (oneByteStore_holds hconfig) (.cons (oneByteStore_holds hmodel) .nil),
    show 1 + (1 + 0) ≤ MAX_TOTAL_BLOB_BYTES by decide⟩

/-- The store is admitted, and the slot is free again. -/
theorem local_store_admission_one_byte :
    ∃ report after, verifyStoreBytes oneByteWorld (lit "a") (sha256Hex oneByteManifest)
      oneByteDigest oneByteRoot.text ⟨1, 0⟩ = .ok report after ∧
      report.manifestSha256 = sha256Hex oneByteManifest ∧ report.weightSha256 = oneByteDigest :=
  ((local_store_admission oneByteWorld oneByteRoot _ _ _ ⟨1, 0⟩ rfl).1 fun _ => rfl).1
    oneByteStore_admitted

end LocalStore

end SzlRouter
