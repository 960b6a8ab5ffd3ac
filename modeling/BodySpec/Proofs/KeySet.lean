import BodySpec.Json.Reader
import BodySpec.Validator
import BodySpec.Proofs.Meaning
import Mathlib.Data.List.Perm.Subperm
import Mathlib.Data.String.Basic

/-!
# The keys of a strict body

A strict validator counts the keys of a body and looks each of them up. Since the keys of a body are in order
(`Json.ordered_of_ofBytes?`) and so do not repeat, this says that they are the declared fields
(`Validator.keysMatch_iff`): a set that is contained in another of the same size is the other.
-/

namespace BodySpec

/-! ## The keys of a body -/

namespace Json.Members

theorem mem_keys_insert {key other : String} {value : Json} {members : Members}
    (h : other ∈ keys (insert key value members)) : other = key ∨ other ∈ keys members := by
  induction members with
  | nil => exact .inl (List.mem_singleton.mp h)
  | cons m rest ih =>
    obtain ⟨k, v⟩ := m
    rw [insert] at h
    split at h
    · exact List.mem_cons.mp h
    · split at h
      · rcases List.mem_cons.mp h with h | h
        · exact .inl h
        · exact .inr (List.mem_cons_of_mem _ h)
      · rcases List.mem_cons.mp h with h | h
        · exact .inr (List.mem_cons.mpr (.inl h))
        · exact (ih h).imp_right (List.mem_cons_of_mem _)

/-- A key takes its place in the order of the keys. -/
theorem ordered_insert (key : String) (value : Json) {members : Members} (h : (keys members).Pairwise (· < ·)) :
    (keys (insert key value members)).Pairwise (· < ·) := by
  induction members with
  | nil => exact List.pairwise_singleton _ _
  | cons m rest ih =>
    obtain ⟨k, v⟩ := m
    obtain ⟨first, others⟩ := List.pairwise_cons.mp h
    rw [insert]
    split
    · rename_i before
      refine List.pairwise_cons.mpr ⟨fun other ho => ?_, h⟩
      rcases List.mem_cons.mp ho with rfl | ho
      · exact before
      · exact before.trans (first other ho)
    · rename_i notBefore
      split
      · rename_i same
        exact List.pairwise_cons.mpr ⟨fun other ho => same ▸ first other ho, others⟩
      · rename_i different
        refine List.pairwise_cons.mpr ⟨fun other ho => ?_, ih others⟩
        rcases mem_keys_insert ho with rfl | ho
        · exact lt_of_le_of_ne (not_lt.mp notBefore) (Ne.symm different)
        · exact first other ho

/-- The keys of an object that is made of a list of members are in order. -/
theorem ordered_ofList (pairs : List (String × Json)) : (keys (ofList pairs)).Pairwise (· < ·) := by
  refine List.foldlRecOn (motive := fun members : Members => (keys members).Pairwise (· < ·)) pairs _ .nil ?_
  exact fun members ordered p _ => ordered_insert p.1 p.2 ordered

/-- Keys in order do not repeat. -/
theorem nodup_of_ordered {names : List String} (h : names.Pairwise (· < ·)) : names.Nodup := h.imp fun h => ne_of_lt h

end Json.Members

/-- The keys of a body that is read are in order. -/
theorem Json.ordered_of_ofBytes? {bytes : ByteArray} {body : Json} (h : Json.ofBytes? bytes = some body) :
    body.keys.Pairwise (· < ·) := by
  obtain ⟨text, _, hr⟩ := Option.bind_eq_some_iff.mp h
  obtain ⟨w, _, hw⟩ := Option.bind_eq_some_iff.mp hr
  cases body with
  | object members =>
    cases w with
    | object written =>
      obtain ⟨pairs, _, hm⟩ := Option.map_eq_some_iff.mp hw
      cases hm
      exact Members.ordered_ofList pairs
    | _ => simp [Written.value?] at hw
  | _ => exact .nil

/-! ## Matching keys -/

theorem nodup_eraseDups : ∀ names : List String, names.eraseDups.Nodup
  | [] => List.nodup_nil
  | name :: names => by
    rw [List.eraseDups_cons, List.nodup_cons]
    exact ⟨by simp [List.mem_eraseDups], nodup_eraseDups _⟩
termination_by names => names.length
decreasing_by exact Nat.lt_succ_of_le (List.length_filter_le _ _)

/-- Names without repetition, as many as there are in a list and all of them in it, are the names of the list. -/
theorem length_eq_and_subset_iff {keys names : List String} (hk : keys.Nodup) :
    (keys.length = names.eraseDups.length ∧ ∀ k ∈ keys, k ∈ names) ↔ ∀ k, k ∈ keys ↔ k ∈ names := by
  constructor
  · rintro ⟨hl, hs⟩
    have sub : keys ⊆ names.eraseDups := fun k h => List.mem_eraseDups.mpr (hs k h)
    have perm : keys.Perm names.eraseDups := (hk.subperm sub).perm_of_length_le (Nat.le_of_eq hl.symm)
    exact fun k => ⟨hs k, fun h => perm.mem_iff.mpr (List.mem_eraseDups.mpr h)⟩
  · intro h
    have perm : keys.Perm names.eraseDups :=
      (List.perm_ext_iff_of_nodup hk (nodup_eraseDups names)).mpr fun k => by rw [h, List.mem_eraseDups]
    exact ⟨perm.length_eq, fun k => (h k).mp⟩

/-- The keys of a body match exactly when they are the declared fields. -/
theorem Validator.keysMatch_iff (V : Validator) {members : Json.Members} (hm : members.keys.Nodup) :
    V.keysMatch members = true ↔ ∀ key, key ∈ members.keys ↔ key ∈ V.fields := by
  rw [← length_eq_and_subset_iff hm]
  simp [keysMatch, declares]

end BodySpec
