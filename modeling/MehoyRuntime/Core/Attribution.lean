import MehoyRuntime.Core.Inference
import MehoyRuntime.Lib.Seen

/-!
# Which vector belongs to which input

`validate` lets a result through when it answers the request: one vector for each input,
all of them usable and of one dimension. Then the vector of an input is found by its index.
-/

namespace MehoyRuntime.Core
open SeenTable

/-- A vector without components, or with one that is not finite, is of no use. -/
def Embedding.Usable (embedding : Embedding) : Prop :=
  embedding.vector ≠ [] ∧ ∀ value ∈ embedding.vector, value.isFinite = true

structure Answers (request : EmbedRequest) (result : EmbeddingResult) : Prop where
  asked : 1 ≤ request.len
  indices : (result.embeddings.map Embedding.index).Perm (List.range request.len)
  usable : ∀ embedding ∈ result.embeddings, embedding.Usable
  dimensions : ∀ embedding ∈ result.embeddings, ∀ other ∈ result.embeddings,
    embedding.vector.length = other.vector.length

/-- The embedding for an input is the only one of the result that carries its index. -/
structure Attributed (result : EmbeddingResult) (index : ℕ) (embedding : Embedding) : Prop where
  own : embedding.index = index
  only : ∃ k : ℕ, result.embeddings[k]? = some embedding ∧
    ∀ (j : ℕ) (other : Embedding), result.embeddings[j]? = some other → other.index = index → j = k

variable {request : EmbedRequest} {result : EmbeddingResult} {n : ℕ} {used : List ℕ}
  {seen : List Bool} {embedding : Embedding} {rest : List Embedding}

/-! ### The pass over the embeddings -/

theorem Embedding.usable_iff : embedding.Usable ↔
    embedding.vector.isEmpty = false ∧ embedding.isFinite = true := by
  simp [Usable, isFinite]

/-- One embedding goes through when its index is below the bound and new and its vector is of
use; then its index is marked. -/
theorem validateEach_cons : validateEach seen (embedding :: rest) = .ok () ↔
    seen[embedding.index]? = some false ∧ embedding.Usable ∧
      validateEach (seen.set embedding.index true) rest = .ok () := by
  rw [Embedding.usable_iff, validateEach]
  split
  · rename_i hseen
    simp [hseen]
  · rename_i hseen
    simp [hseen]
  · rename_i hseen
    cases hempty : embedding.vector.isEmpty with
    | true => simp
    | false =>
      cases hfinite : embedding.isFinite with
      | true => simp [hseen]
      | false => simp

theorem validateEach_ok_iff (h : Marks n used seen) (embeddings : List Embedding) :
    validateEach seen embeddings = .ok () ↔
      (embeddings.map Embedding.index).Nodup ∧
        ∀ embedding ∈ embeddings,
          embedding.index < n ∧ embedding.index ∉ used ∧ embedding.Usable := by
  induction embeddings generalizing used seen with
  | nil => simp [validateEach]
  | cons embedding rest ih =>
    rw [validateEach_cons, h.fresh, ih h.mark, List.map_cons, List.nodup_cons,
      List.forall_mem_cons]
    have hindex : embedding.index ∉ rest.map Embedding.index ↔
        ∀ other ∈ rest, other.index ≠ embedding.index := by
      simp [List.mem_map]
    rw [hindex]
    constructor
    · rintro ⟨⟨hlt, hnew⟩, husable, hnodup, hrest⟩
      refine ⟨⟨fun other hother hsame => ?_, hnodup⟩, ⟨hlt, hnew, husable⟩, fun other hother => ?_⟩
      · obtain ⟨-, hunmarked, -⟩ := hrest other hother
        exact hunmarked (hsame ▸ List.mem_cons_self)
      · obtain ⟨hbelow, hunmarked, hgood⟩ := hrest other hother
        exact ⟨hbelow, fun hmem => hunmarked (List.mem_cons_of_mem _ hmem), hgood⟩
    · rintro ⟨⟨hdiffer, hnodup⟩, ⟨hlt, hnew, husable⟩, hrest⟩
      refine ⟨⟨hlt, hnew⟩, husable, hnodup, fun other hother => ?_⟩
      obtain ⟨hbelow, hunmarked, hgood⟩ := hrest other hother
      refine ⟨hbelow, fun hmem => ?_, hgood⟩
      rcases List.mem_cons.mp hmem with hsame | hmem
      · exact hdiffer other hother hsame
      · exact hunmarked hmem

/-! ### The dimension -/

theorem dimension_isSome_iff : result.dimension.isSome = true ↔
    result.embeddings ≠ [] ∧ ∀ embedding ∈ result.embeddings, ∀ other ∈ result.embeddings,
      embedding.vector.length = other.vector.length := by
  unfold EmbeddingResult.dimension
  cases hembeddings : result.embeddings with
  | nil => simp
  | cons first rest =>
    rw [List.map_cons]
    have hall : (rest.map Embedding.dimension).all (fun other => other = first.dimension) = true ↔
        ∀ other ∈ rest, other.vector.length = first.vector.length := by
      rw [List.all_eq_true, List.forall_mem_map]
      exact ⟨fun h other hother => of_decide_eq_true (h other hother),
        fun h other hother => decide_eq_true (h other hother)⟩
    constructor
    · intro hsome
      have hrest := hall.mp (by simpa using hsome)
      have hfirst : ∀ other ∈ first :: rest, other.vector.length = first.vector.length :=
        List.forall_mem_cons.mpr ⟨rfl, hrest⟩
      refine ⟨List.cons_ne_nil _ _, fun embedding hmem other hother => ?_⟩
      rw [hfirst embedding hmem, hfirst other hother]
    · rintro ⟨-, hsame⟩
      have hrest := hall.mpr fun other hother =>
        hsame other (List.mem_cons_of_mem _ hother) first List.mem_cons_self
      simp [hrest]

/-! ### A result that answers -/

theorem validate_ok_iff : validate request result = .ok () ↔ Answers request result := by
  have hpass := validateEach_ok_iff (marks_none request.len) result.embeddings
  constructor
  · intro hok
    unfold validate at hok
    split at hok
    · cases hok
    · rename_i hcount
      have hlength : result.embeddings.length = request.len := not_not.mp hcount
      split at hok
      · cases hok
      · rename_i heach
        obtain ⟨hnodup, heach⟩ := hpass.mp heach
        split at hok
        · cases hok
        · rename_i hdimension
          have hsome : result.dimension.isSome = true := by
            cases hagreed : result.dimension with
            | none => exact absurd (congrArg Option.isNone hagreed) hdimension
            | some n => rfl
          obtain ⟨hsome, hdimensions⟩ := dimension_isSome_iff.mp hsome
          have hpos : 0 < result.embeddings.length := List.length_pos_iff.mpr hsome
          constructor
          case asked => omega
          case indices =>
            apply perm_range hnodup
            · intro i hi
              obtain ⟨embedding, hmem, rfl⟩ := List.mem_map.mp hi
              exact (heach embedding hmem).1
            · rw [List.length_map, hlength]
          case usable => exact fun embedding hmem => (heach embedding hmem).2.2
          case dimensions => exact hdimensions
  · intro h
    have hlength : result.embeddings.length = request.len := by
      have hperm := h.indices.length_eq
      rwa [List.length_map, List.length_range] at hperm
    have heach : validateEach (List.replicate request.len false) result.embeddings = .ok () := by
      refine hpass.mpr ⟨h.indices.nodup_iff.mpr List.nodup_range, fun embedding hmem => ?_⟩
      have hindex := h.indices.mem_iff.mp (List.mem_map_of_mem (f := Embedding.index) hmem)
      exact ⟨List.mem_range.mp hindex, List.not_mem_nil, h.usable embedding hmem⟩
    have hsome : result.embeddings ≠ [] := by
      intro hnil
      have hasked := h.asked
      rw [hnil, List.length_nil] at hlength
      omega
    have hdimension := dimension_isSome_iff.mpr ⟨hsome, h.dimensions⟩
    have hnone : result.dimension.isNone = false := by
      rw [← Option.not_isSome, hdimension]
      rfl
    simp [validate, hlength, heach, hnone]

/-- The inputs that have an embedding are those of the request. -/
theorem Answers.forInput_isSome (h : Answers request result) (index : ℕ) :
    (result.forInput index).isSome = true ↔ index < request.len := by
  rw [EmbeddingResult.forInput, List.find?_isSome, ← List.mem_range, ← h.indices.mem_iff,
    List.mem_map]
  simp

theorem Answers.attributed (h : Answers request result) {index : ℕ} {embedding : Embedding}
    (hfound : result.forInput index = some embedding) : Attributed result index embedding := by
  have hindex : embedding.index = index := by simpa using List.find?_some hfound
  have hnodup := h.indices.nodup_iff.mpr List.nodup_range
  obtain ⟨k, hk⟩ := List.getElem?_of_mem (List.mem_of_find?_eq_some hfound)
  refine ⟨hindex, k, hk, fun j other hj hother => ?_⟩
  have hat : (result.embeddings.map Embedding.index)[j]? =
      (result.embeddings.map Embedding.index)[k]? := by
    rw [List.getElem?_map, List.getElem?_map, hj, hk, Option.map_some, Option.map_some, hother,
      hindex]
  have hlt : j < (result.embeddings.map Embedding.index).length := by
    rw [List.length_map]
    exact (List.getElem?_eq_some_iff.mp hj).1
  exact (List.getElem?_inj hlt hnodup).mp hat

/-- `validate` is exact, and a result that it lets through can be read by input. -/
theorem validate_exact (request : EmbedRequest) (result : EmbeddingResult) :
    (validate request result = .ok () ↔ Answers request result) ∧
      (validate request result = .ok () → ∀ index,
        ((result.forInput index).isSome = true ↔ index < request.len) ∧
        ∀ embedding, result.forInput index = some embedding →
          Attributed result index embedding) := by
  refine ⟨validate_ok_iff, fun hok index => ?_⟩
  have hanswers := validate_ok_iff.mp hok
  exact ⟨hanswers.forInput_isSome index, fun _ => hanswers.attributed⟩

/-- Two vectors in the order opposite to that of the inputs. -/
def swapped : EmbeddingResult := ⟨[⟨1, [⟨0x40000000⟩]⟩, ⟨0, [⟨0x3f800000⟩]⟩]⟩

theorem validate_exact_swapped : validate ⟨["a", "b"]⟩ swapped = .ok () ∧
    swapped.forInput 0 = some ⟨0, [⟨0x3f800000⟩]⟩ ∧ Attributed swapped 0 ⟨0, [⟨0x3f800000⟩]⟩ := by
  have hok : validate ⟨["a", "b"]⟩ swapped = .ok () := by decide
  have hfound : swapped.forInput 0 = some ⟨0, [⟨0x3f800000⟩]⟩ := by decide
  exact ⟨hok, hfound, ((validate_exact ⟨["a", "b"]⟩ swapped).2 hok 0).2 _ hfound⟩

end MehoyRuntime.Core
