/-
Values with one canonical text.

The gateway hashes the canonical bytes of a value.  They determine the value up to the
order of the members of its objects, and they are determined by it.

* `canonical_injective` — values with the same canonical bytes are read back alike;
* `canonical_of_norm_eq` — values that are read back alike have the same canonical bytes;
* `members_perm_of_norm_eq`, `norm_obj_of_perm` — objects that are read back alike, member
  by member.
-/
import SzlRouter.JsonStable
import SzlRouter.Verification

namespace SzlRouter

namespace Gateway

open Py

/-! ### Values with one text -/

/-- The text behind canonical bytes. -/
theorem text_of_canonical {u : Json} {b : Bytes} (hu : canonical u = .ok b) :
    ∃ t, dumps canonicalDumps u = some t ∧ utf8 t = some b := by
  rw [canonical] at hu
  cases ht : dumps canonicalDumps u with
  | none =>
    rw [ht] at hu
    cases hu
  | some t =>
    rw [ht] at hu
    dsimp only at hu
    cases hraw : utf8 t with
    | none =>
      rw [hraw] at hu
      cases hu
    | some raw =>
      rw [hraw] at hu
      exact ⟨t, rfl, hraw.trans (congrArg some (Except.ok.inj hu))⟩

/-- **Values with the same canonical bytes are read back alike.** -/
theorem canonical_injective {v w : Json} {b : Bytes} (hv : canonical v = .ok b)
    (hw : canonical w = .ok b) : norm canonicalDumps v = norm canonicalDumps w := by
  obtain ⟨t, ht, hraw⟩ := text_of_canonical hv
  obtain ⟨t', ht', hraw'⟩ := text_of_canonical hw
  obtain rfl := utf8_injective hraw hraw'
  exact dumps_injective ht ht'

section members

variable {d e : Dict} (hd : (Dict.keys d).Nodup) (he : (Dict.keys e).Nodup)
  (h : norm canonicalDumps (.obj d) = norm canonicalDumps (.obj e))

include hd he h

/-- Objects that are read back alike have the same members, read back. -/
theorem members_perm_of_norm_eq :
    (d.map fun p => (p.1, norm canonicalDumps p.2)).Perm
      (e.map fun p => (p.1, norm canonicalDumps p.2)) := by
  have hread : ∀ {c : Dict}, (Dict.keys c).Nodup →
      norm canonicalDumps (.obj c) = .obj (rereadMembers canonicalDumps c) :=
    fun hc => @norm_obj_of_nodup canonicalDumps _ hc
  rw [hread hd, hread he] at h
  have hmembers : rereadMembers canonicalDumps d = rereadMembers canonicalDumps e := Json.obj.inj h
  have hleft : (rereadMembers canonicalDumps d).Perm
      (d.map fun p => (p.1, norm canonicalDumps p.2)) :=
    (canonicalDumps.order_perm d).map _
  have hright : (rereadMembers canonicalDumps e).Perm
      (e.map fun p => (p.1, norm canonicalDumps p.2)) :=
    (canonicalDumps.order_perm e).map _
  exact hleft.symm.trans (hmembers ▸ hright)

/-- A field that both have. -/
theorem field_of_norm_eq {k : Str} {v w : Json} (hv : Dict.get d k = some v)
    (hw : Dict.get e k = some w) : norm canonicalDumps v = norm canonicalDumps w := by
  have hmem : (k, norm canonicalDumps v) ∈ e.map fun p => (p.1, norm canonicalDumps p.2) :=
    (members_perm_of_norm_eq hd he h).mem_iff.mp
      (List.mem_map.mpr ⟨(k, v), Dict.mem_of_get hv, rfl⟩)
  obtain ⟨⟨l, u⟩, hu, heq⟩ := List.mem_map.mp hmem
  obtain ⟨rfl, hnorm⟩ := Prod.mk.inj heq
  obtain rfl := Option.some.inj (((Dict.get_eq_some he).mpr hu).symm.trans hw)
  exact hnorm.symm

end members

theorem str_of_norm_eq {s t : Str}
    (h : norm canonicalDumps (.str s) = norm canonicalDumps (.str t)) : s = t := Json.str.inj h

theorem int_of_norm_eq {m n : ℤ}
    (h : norm canonicalDumps (.int m) = norm canonicalDumps (.int n)) : m = n :=
  Num.int.inj (Json.num.inj h)

theorem bool_of_norm_eq {b c : Bool}
    (h : norm canonicalDumps (.bool b) = norm canonicalDumps (.bool c)) : b = c := Json.bool.inj h

/-- Arrays are compared element by element. -/
theorem arr_of_norm_eq {vs ws : List Json}
    (h : norm canonicalDumps (.arr vs) = norm canonicalDumps (.arr ws)) :
    vs.map (norm canonicalDumps) = ws.map (norm canonicalDumps) := by
  rw [norm_arr, norm_arr] at h
  exact Json.arr.inj h

theorem strs_of_norm_eq {ss ts : List Str} (h : norm canonicalDumps (.arr (ss.map .str)) =
    norm canonicalDumps (.arr (ts.map .str))) : ss = ts := by
  have hmap := arr_of_norm_eq h
  rw [List.map_map, List.map_map] at hmap
  exact List.map_injective_iff.mpr (fun _ _ heq => str_of_norm_eq heq) hmap

/-! ### Equal texts -/

/-- Objects with the same members, read back, are read back alike. -/
theorem norm_obj_of_perm {d e : Dict} (hd : (Dict.keys d).Nodup) (he : (Dict.keys e).Nodup)
    (h : (d.map fun p => (p.1, norm canonicalDumps p.2)).Perm
      (e.map fun p => (p.1, norm canonicalDumps p.2))) :
    norm canonicalDumps (.obj d) = norm canonicalDumps (.obj e) := by
  have hread : ∀ {c : Dict}, (Dict.keys c).Nodup → norm canonicalDumps (.obj c) =
      .obj (sortByKey (c.map fun p => (p.1, norm canonicalDumps p.2))) := by
    intro c hc
    rw [@norm_obj_of_nodup canonicalDumps _ hc, rereadMembers]
    exact congrArg Json.obj
      (canonicalDumps.order_map c (fun p => (p.1, norm canonicalDumps p.2)) fun _ => rfl).symm
  rw [hread hd, hread he, sortByKey_eq_of_perm ?_ h]
  rw [List.map_map]
  exact hd

/-- **Values that are read back alike have the same canonical bytes.** -/
theorem canonical_of_norm_eq {v w : Json} {b c : Bytes} (hv : Stable canonicalDumps v)
    (hw : Stable canonicalDumps w) (h : norm canonicalDumps v = norm canonicalDumps w)
    (hb : canonical v = .ok b) (hc : canonical w = .ok c) : b = c := by
  have hrender : render canonicalDumps v = render canonicalDumps w := by
    rw [← render_norm rfl hv, h, render_norm rfl hw]
  obtain ⟨t, ht, hraw⟩ := text_of_canonical hb
  obtain ⟨t', ht', hraw'⟩ := text_of_canonical hc
  have hsame : t = t' := by
    rw [dumps] at ht ht'
    split_ifs at ht ht'
    rw [← Option.some.inj ht, ← Option.some.inj ht', hrender]
  rw [hsame] at hraw
  exact Option.some.inj (hraw.symm.trans hraw')

end Gateway

end SzlRouter
