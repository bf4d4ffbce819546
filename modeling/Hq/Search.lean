/-
Queue search over a finite directed graph.  The loop pops a candidate, stops
at the target, and expands a candidate the first time it is met; the fuel
bound counts the pending candidates and the edges not yet expanded.
-/
import Mathlib

namespace Hq

universe u

variable {α : Type u} [DecidableEq α]

/-- The search loop: `visited` has been expanded, `pending` has not. -/
def search (next : α → List α) (target : α) :
    Nat → List α → List α → Bool
  | 0, _, _ => false
  | _ + 1, _, [] => false
  | fuel + 1, visited, candidate :: pending =>
      if candidate = target then true
      else if candidate ∈ visited then search next target fuel visited pending
      else search next target fuel (candidate :: visited)
        (pending ++ next candidate)

/-- One edge of the searched graph. -/
def Edge (next : α → List α) (source sink : α) : Prop := sink ∈ next source

theorem search_sound {next : α → List α} {target : α} {fuel : Nat}
    {visited pending : List α}
    (hsearch : search next target fuel visited pending = true) :
    ∃ start ∈ pending, Relation.ReflTransGen (Edge next) start target := by
  induction fuel generalizing visited pending with
  | zero => simp [search] at hsearch
  | succ fuel ih =>
      cases pending with
      | nil => simp [search] at hsearch
      | cons candidate pending =>
          unfold search at hsearch
          split at hsearch
          next heq =>
            subst heq
            exact ⟨candidate, List.mem_cons_self, .refl⟩
          next =>
            split at hsearch
            · obtain ⟨start, hstart, hpath⟩ := ih hsearch
              exact ⟨start, List.mem_cons_of_mem _ hstart, hpath⟩
            · obtain ⟨start, hstart, hpath⟩ := ih hsearch
              rcases List.mem_append.1 hstart with hstart | hstart
              · exact ⟨start, List.mem_cons_of_mem _ hstart, hpath⟩
              · exact ⟨candidate, List.mem_cons_self, .head hstart hpath⟩

/-- Edges that leave vertices not expanded yet. -/
def unexpandedEdges (next : α → List α) (vertices visited : List α) : Nat :=
  (vertices.map fun vertex =>
    if vertex ∈ visited then 0 else (next vertex).length).sum

theorem unexpandedEdges_cons_le (next : α → List α)
    (vertices visited : List α) (candidate : α) :
    unexpandedEdges next vertices (candidate :: visited) ≤
      unexpandedEdges next vertices visited := by
  refine List.sum_le_sum fun vertex _ => ?_
  by_cases hseen : vertex ∈ visited
  · simp [hseen]
  · simp only [hseen, ↓reduceIte]
    split <;> omega

theorem unexpandedEdges_congr (next : α → List α) (vertices : List α)
    {left right : List α} (h : ∀ v, v ∈ left ↔ v ∈ right) :
    unexpandedEdges next vertices left = unexpandedEdges next vertices right := by
  unfold unexpandedEdges
  simp only [h]

/-- Expanding a new vertex pays for its outgoing edges. -/
theorem unexpandedEdges_expand (next : α → List α)
    {vertices visited : List α} {candidate : α}
    (hmem : candidate ∈ vertices) (hnew : candidate ∉ visited) :
    (next candidate).length +
        unexpandedEdges next vertices (candidate :: visited) ≤
      unexpandedEdges next vertices visited := by
  induction vertices with
  | nil => simp at hmem
  | cons head tail ih =>
      have hmono := unexpandedEdges_cons_le next tail visited candidate
      by_cases hhead : head = candidate
      · subst hhead
        simp only [unexpandedEdges, List.map_cons, List.sum_cons,
          List.mem_cons_self, hnew, ↓reduceIte] at hmono ⊢
        omega
      · have htail := ih ((List.mem_cons.1 hmem).resolve_left (Ne.symm hhead))
        simp only [unexpandedEdges, List.map_cons, List.sum_cons,
          List.mem_cons, hhead, false_or] at htail ⊢
        omega

/-- Every vertex met from the pending ones. -/
def reachable (next : α → List α) : Nat → List α → List α → List α
  | 0, visited, _ => visited
  | _ + 1, visited, [] => visited
  | fuel + 1, visited, candidate :: pending =>
      if candidate ∈ visited then reachable next fuel visited pending
      else reachable next fuel (candidate :: visited)
        (pending ++ next candidate)

/-- Every vertex met lies on a path from a pending one. -/
theorem reachable_sound {next : α → List α} {fuel : Nat}
    {visited pending : List α} {target : α}
    (h : target ∈ reachable next fuel visited pending) :
    target ∈ visited ∨ ∃ start ∈ pending,
      Relation.ReflTransGen (Edge next) start target := by
  induction fuel generalizing visited pending with
  | zero => exact Or.inl h
  | succ fuel ih =>
      cases pending with
      | nil => exact Or.inl h
      | cons candidate pending =>
          rw [reachable] at h
          split at h
          next =>
            rcases ih h with hmem | ⟨start, hstart, hpath⟩
            · exact Or.inl hmem
            · exact Or.inr ⟨start, List.mem_cons_of_mem _ hstart, hpath⟩
          next =>
            rcases ih h with hmem | ⟨start, hstart, hpath⟩
            · rcases List.mem_cons.1 hmem with rfl | hmem
              · exact Or.inr ⟨target, List.mem_cons_self, .refl⟩
              · exact Or.inl hmem
            · rcases List.mem_append.1 hstart with hstart | hstart
              · exact Or.inr ⟨start, List.mem_cons_of_mem _ hstart, hpath⟩
              · exact Or.inr
                  ⟨candidate, List.mem_cons_self, .head hstart hpath⟩

/-- With enough fuel every vertex on a path from the start is met. -/
theorem mem_reachable {next : α → List α} {vertices : List α}
    (hout : ∀ v, v ∉ vertices → next v = []) {fuel : Nat}
    {visited pending : List α}
    (hfuel : pending.length + unexpandedEdges next vertices visited < fuel)
    (hexpanded : ∀ v ∈ visited, ∀ w ∈ next v, w ∈ visited ∨ w ∈ pending)
    {start target : α} (hstart : start ∈ visited ∨ start ∈ pending)
    (hpath : Relation.ReflTransGen (Edge next) start target) :
    target ∈ reachable next fuel visited pending := by
  induction fuel generalizing visited pending start with
  | zero => omega
  | succ fuel ih =>
      cases pending with
      | nil =>
          -- Nothing is pending, so the visited vertices are closed.
          have hclosed : ∀ w, Relation.ReflTransGen (Edge next) start w →
              w ∈ visited := by
            intro w hw
            induction hw with
            | refl => simpa using hstart
            | tail _ hedge ihw => simpa using hexpanded _ ihw _ hedge
          exact hclosed target hpath
      | cons candidate pending =>
          rw [reachable]
          simp only [List.length_cons] at hfuel
          split
          next hseen =>
            refine ih (by omega) ?_ ?_ hpath
            · intro v hv w hw
              rcases hexpanded v hv w hw with hw | hw
              · exact Or.inl hw
              · rcases List.mem_cons.1 hw with rfl | hw
                · exact Or.inl hseen
                · exact Or.inr hw
            · rcases hstart with hstart | hstart
              · exact Or.inl hstart
              · rcases List.mem_cons.1 hstart with rfl | hstart
                · exact Or.inl hseen
                · exact Or.inr hstart
          next hnew =>
            refine ih ?_ ?_ ?_ hpath
            · rw [List.length_append]
              by_cases hmem : candidate ∈ vertices
              · have := unexpandedEdges_expand next hmem hnew
                omega
              · have := unexpandedEdges_cons_le next vertices visited candidate
                rw [hout candidate hmem, List.length_nil]
                omega
            · intro v hv w hw
              rcases List.mem_cons.1 hv with rfl | hv
              · exact Or.inr (List.mem_append_right _ hw)
              · rcases hexpanded v hv w hw with hw | hw
                · exact Or.inl (List.mem_cons_of_mem _ hw)
                · rcases List.mem_cons.1 hw with rfl | hw
                  · exact Or.inl List.mem_cons_self
                  · exact Or.inr (List.mem_append_left _ hw)
            · rcases hstart with hstart | hstart
              · exact Or.inl (List.mem_cons_of_mem _ hstart)
              · rcases List.mem_cons.1 hstart with rfl | hstart
                · exact Or.inl List.mem_cons_self
                · exact Or.inr (List.mem_append_left _ hstart)

/-- The search ends at every new vertex that is met. -/
theorem search_of_mem_reachable {next : α → List α} {target : α} {fuel : Nat}
    {visited pending : List α} (htarget : target ∉ visited)
    (hmet : target ∈ reachable next fuel visited pending) :
    search next target fuel visited pending = true := by
  induction fuel generalizing visited pending with
  | zero => exact absurd hmet htarget
  | succ fuel ih =>
      cases pending with
      | nil => exact absurd hmet htarget
      | cons candidate pending =>
          unfold search
          split
          · rfl
          next hne =>
            rw [reachable] at hmet
            split
            next hseen =>
              rw [if_pos hseen] at hmet
              exact ih htarget hmet
            next hnew =>
              rw [if_neg hnew] at hmet
              refine ih ?_ hmet
              rw [List.mem_cons, not_or]
              exact ⟨Ne.symm hne, htarget⟩

/-- With enough fuel the search decides reachability from the successors of
a vertex, that is, a path of at least one edge. -/
theorem search_successors_iff {next : α → List α} {source target : α}
    (vertices : List α) (hout : ∀ v, v ∉ vertices → next v = [])
    {fuel : Nat}
    (hfuel : (next source).length + (vertices.map fun v =>
      (next v).length).sum < fuel) :
    search next target fuel [] (next source) = true ↔
      Relation.TransGen (Edge next) source target := by
  rw [Relation.TransGen.head'_iff]
  constructor
  · intro hsearch
    obtain ⟨start, hstart, hpath⟩ := search_sound hsearch
    exact ⟨start, hstart, hpath⟩
  · rintro ⟨start, hstart, hpath⟩
    refine search_of_mem_reachable (by simp)
      (mem_reachable hout ?_ (by simp) (Or.inr hstart) hpath)
    simpa [unexpandedEdges] using hfuel

/-- A path into a vertex only takes edges from which that vertex is reached. -/
theorem transGen_imp_into {α : Type*} {left right : α → α → Prop} {source target : α}
    (h : ∀ y z, left y z → Relation.ReflTransGen left z target → right y z)
    (hpath : Relation.TransGen left source target) :
    Relation.TransGen right source target := by
  induction hpath using Relation.TransGen.head_induction_on with
  | single hedge => exact .single (h _ _ hedge .refl)
  | head hedge hrest ih => exact .head (h _ _ hedge hrest.to_reflTransGen) ih

end Hq
