import LogSieve.Session
import Mathlib.Data.List.Nodup
/-!
# What a filter lets through

The directive that decides about an event is about it and says at least as much of its origin
as every other that is (`concerns_of_decisive?`). Two directives that say as much of the same
origin say the same of it, so directives about different origins may stand in any order
(`ofDirectives_perm`). Who asks for no filter that can be read gets the filter `info`
(`filter_of_unread`).
-/
namespace LogSieve
variable {event : Event} {directives others : List Directive} {directive decided : Directive}

namespace Directive

theorem decisive?_eq_none_iff :
    decisive? event directives = none ↔ ∀ directive ∈ directives, ¬ directive.Concerns event := by
  induction directives with
  | nil => simp [decisive?]
  | cons directive rest ih =>
    rw [decisive?, List.forall_mem_cons, ← ih]
    cases decisive? event rest with
    | none => by_cases concerns : directive.Concerns event <;> simp [concerns]
    | some other =>
      simp only
      split <;> simp

theorem concerns_of_decisive? (decides : decisive? event directives = some decided) :
    decided ∈ directives ∧ decided.Concerns event ∧
      ∀ directive ∈ directives, directive.Concerns event → directive.origin.length ≤ decided.origin.length := by
  induction directives generalizing decided with
  | nil => cases decides
  | cons directive rest ih =>
    rw [decisive?] at decides
    cases later : decisive? event rest with
    | none =>
      have unconcerned := decisive?_eq_none_iff.1 later
      simp only [later] at decides
      split at decides
      · rename_i concerns
        cases decides
        refine ⟨List.mem_cons_self, concerns, List.forall_mem_cons.2 ⟨fun _ => Nat.le_refl _, ?_⟩⟩
        exact fun other member concerned => absurd concerned (unconcerned other member)
      · cases decides
    | some other =>
      obtain ⟨member, concerned, most⟩ := ih later
      simp only [later] at decides
      split at decides
      · rename_i longer
        cases decides
        refine ⟨List.mem_cons_self, longer.1, List.forall_mem_cons.2 ⟨fun _ => Nat.le_refl _, ?_⟩⟩
        exact fun third inside concerns => Nat.le_trans (most third inside concerns) (Nat.le_of_lt longer.2)
      · rename_i shorter
        cases decides
        refine ⟨List.mem_cons_of_mem _ member, concerned, List.forall_mem_cons.2 ⟨fun concerns => ?_, most⟩⟩
        exact Nat.not_lt.1 fun longer => shorter ⟨concerns, longer⟩

theorem origin_eq_of_concerns (concerns : directive.Concerns event) (concerned : decided.Concerns event)
    (same : directive.origin.length = decided.origin.length) : directive.origin = decided.origin := by
  rw [Concerns, List.isPrefixOf_iff_prefix] at concerns concerned
  exact (List.prefix_of_prefix_length_le concerns concerned (Nat.le_of_eq same)).eq_of_length same

end Directive

namespace Filter
open Directive

theorem decisive?_perm (apart : (directives.map (·.origin)).Nodup) (perm : directives.Perm others) :
    decisive? event directives = decisive? event others := by
  cases one : decisive? event directives with
  | none =>
    refine (decisive?_eq_none_iff.2 fun directive member => ?_).symm
    exact decisive?_eq_none_iff.1 one directive (perm.mem_iff.2 member)
  | some decided =>
    obtain ⟨member, concerned, most⟩ := concerns_of_decisive? one
    cases two : decisive? event others with
    | none => exact absurd concerned (decisive?_eq_none_iff.1 two decided (perm.mem_iff.1 member))
    | some directive =>
      obtain ⟨otherMember, otherConcerned, otherMost⟩ := concerns_of_decisive? two
      have inside := perm.mem_iff.2 otherMember
      have same := origin_eq_of_concerns concerned otherConcerned
        (Nat.le_antisymm (otherMost _ (perm.mem_iff.1 member) concerned) (most _ inside otherConcerned))
      exact congrArg some (List.inj_on_of_nodup_map apart member inside same)

/-- Directives about different origins may stand in any order. -/
theorem ofDirectives_perm (apart : (directives.map (·.origin)).Nodup) (perm : directives.Perm others) :
    ofDirectives directives = ofDirectives others := by
  simp only [ofDirectives, decisive?_perm apart perm]

/-- A level by itself is about every event. -/
theorem ofDirectives_level (level : Level) : ofDirectives [⟨[], some level⟩] = ofLevel level := rfl

end Filter

/-- An environment that asks for no filter, or for one that cannot be read, has the filter `info`. -/
theorem Environment.filter_of_unread {environment : Environment}
    (unread : environment.level.bind Filter.ofText? = none) :
    Filter.ofText? "info" = some (environment.filter Filter.ofText?) := by
  rw [Environment.filter, unread, Option.getD_none, ← Filter.ofDirectives_level]
  rfl

end LogSieve
