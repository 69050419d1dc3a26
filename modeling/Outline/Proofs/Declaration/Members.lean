/-
Module: Outline.Proofs.Declaration.Members
Layer: Proofs
Purpose: The members of a class one by one. Members are added to those before them, and a constructor may replace the
  one before it, so that whatever the readers of single members see to holds of all members of a class.
Main exports: ClassMembers.Each, classMembers?_each
-/
import Outline.Declaration.Member
import Outline.Proofs.Reading.Ensures

namespace Outline

/-- Every property satisfies `P`, and every method, accessor and constructor satisfies `M`. -/
structure ClassMembers.Each (P : Property → Prop) (M : Method → Prop) (ms : ClassMembers) : Prop where
  properties : ∀ p ∈ ms.properties, P p
  methods : ∀ m ∈ ms.methods, M m
  constructor : ∀ m ∈ ms.constructor, M m

/-- No members: each of them satisfies what one likes. -/
theorem ClassMembers.Each.none {P : Property → Prop} {M : Method → Prop} : ClassMembers.Each P M {} :=
  ⟨by simp, by simp, by simp⟩

variable {site : Site} {owner : String} {P : Property → Prop} {M : Method → Prop}

/-- What a node adds to the members of a class is as its readers see to. -/
theorem addMember_each {implemented : List String} {ms : ClassMembers} {n : Node} (before : ms.Each P M)
    (property : (propertyOf site owner n).Ensures P) (method : (methodOf site owner n).Ensures M)
    (builder : (constructorOf site owner n).Ensures M) :
    (addMember site owner implemented ms n).Ensures (·.Each P M) := by
  obtain ⟨properties, methods, constructor⟩ := before
  unfold addMember
  split
  · refine .after _ fun name => ?_
    split
    · split
      · refine .bind builder fun m holds => ?_
        exact .pure ⟨properties, methods, by simpa using holds⟩
      · exact .pure ⟨properties, methods, constructor⟩
    · split
      · exact .pure ⟨properties, methods, constructor⟩
      · refine .bind method fun m holds => ?_
        refine .pure ⟨properties, ?_, constructor⟩
        rw [List.forall_mem_append]
        exact ⟨methods, by simpa using holds⟩
  · split
    · refine .bind property fun p holds => ?_
      refine .pure ⟨?_, methods, constructor⟩
      rw [List.forall_mem_append]
      exact ⟨properties, by simpa using holds⟩
    · exact .pure ⟨properties, methods, constructor⟩

/-- What each property, method and constructor read from a body satisfies holds of the members added. -/
theorem addMembers_each {implemented : List String} {ms : ClassMembers} {ns : List Node} (before : ms.Each P M)
    (property : ∀ n ∈ ns, (propertyOf site owner n).Ensures P)
    (method : ∀ n ∈ ns, (methodOf site owner n).Ensures M)
    (builder : ∀ n ∈ ns, (constructorOf site owner n).Ensures M) :
    (addMembers site owner implemented ms ns).Ensures (·.Each P M) := by
  induction ns generalizing ms with
  | nil => exact .pure before
  | cons n rest ih =>
      rw [List.forall_mem_cons] at property method builder
      rw [addMembers]
      refine .bind (addMember_each before property.1 method.1 builder.1) fun added each => ?_
      exact ih each property.2 method.2 builder.2

/-- The members of a class are as the readers of single members see to, for every node in its body. -/
theorem classMembers?_each {body : Option Node}
    (property : ∀ b ∈ body, ∀ n ∈ b.named, (propertyOf site owner n).Ensures P)
    (method : ∀ b ∈ body, ∀ n ∈ b.named, (methodOf site owner n).Ensures M)
    (builder : ∀ b ∈ body, ∀ n ∈ b.named, (constructorOf site owner n).Ensures M) :
    (classMembers? site owner body).Ensures (·.Each P M) := by
  cases body with
  | none => exact .pure .none
  | some body =>
      refine .after _ fun implemented => ?_
      exact addMembers_each .none (property body rfl) (method body rfl) (builder body rfl)

end Outline
