import DeviceNaming.Proofs.Area.Mentions
import DeviceNaming.Proofs.Household.Actions
import DeviceNaming.Proofs.Household.AreaLogs

/-!
# Queries that mention an area

Whatever was done before, a query is about an area only if it mentions one, and then about the one that the name of
the first area it mentions leads to: `Resolver.resolve_mentioned`. This is the area mentioned as long as no other area of
the user was registered with its name since the household was rebuilt.
-/

namespace DeviceNaming

attribute [local irreducible] Text.normalize Text.trimmed

namespace Resolver

open ResolverState

variable {e : Embedder} {h : Household} {s : Shared} {log : AreaLog}

/-- The area of an answer is the area of the query. -/
theorem areaOfQuery_of_resolveIn {query : String} {domain : Option String} {limit : Nat} {answer : Resolution}
    (hanswer : (resolveIn e h query domain limit s).1 = .ok answer) :
    (areaOfQuery e h query s).1 = .ok answer.areaId := by
  have harea : ∀ (areaId : Option String) (found : Except DimensionMismatch (List EntityMatch))
      (hits : List EntityMatch → List EntityMatch),
      (found.map fun ms => (⟨areaId, hits ms⟩ : Resolution)) = .ok answer → answer.areaId = areaId := by
    intro areaId found hits hmap
    cases found with
    | error err => cases hmap
    | ok ms =>
      cases hmap
      rfl
  unfold resolveIn at hanswer
  rcases hquery : areaOfQuery e h query s with ⟨err | _ | areaId, t⟩
  · rw [hquery] at hanswer
    cases hanswer
  · rw [hquery] at hanswer
    rw [harea none _ id hanswer]
  · rw [hquery] at hanswer
    rw [harea (some areaId) _ (fun hits => (withinArea h areaId hits).take limit) hanswer]

/-- The area of a query is what the name of the first area that it mentions leads to. -/
theorem narrows_areaOfQuery (T : h.areas.Tells log) {query : String} {found : Option String}
    (hfound : (areaOfQuery e h query s).1 = .ok found) : h.areas.Narrows log query found := by
  unfold areaOfQuery at hfound
  rw [AreaRegistry.mentioned?_eq] at hfound
  cases hfirst : h.areas.firstMentioned query with
  | none =>
    rw [hfirst] at hfound
    cases hfound
    exact AreaRegistry.narrows_none hfirst
  | some a =>
    rw [hfirst] at hfound
    exact T.narrows hfirst hfound

/-- After any commands and with any provider, a user with a household gets an answer if the provider declares a
dimension, and every answer narrows the household to where the query leads. -/
theorem resolve_mentioned (r : Resolver) (cmds : List Command) (user query : String) (domain : Option String)
    (limit : Option Nat) {n : Nat} {h : Household}
    (hcurrent : ((r.run cmds).current user false).1 = some (n, h)) :
    (r.embedder.Declared → ∃ answer, (r.resolve user query domain limit (r.run cmds)).1 = .ok answer) ∧
      ∀ answer, (r.resolve user query domain limit (r.run cmds)).1 = .ok answer →
        h.areas.Narrows (Command.areaLog user cmds) query answer.areaId := by
  refine ⟨fun hd => ?_, fun answer hanswer => ?_⟩
  · obtain ⟨answer, st, hresolve, -⟩ := measured_resolve hd (measured_run hd cmds) user query domain limit
    exact ⟨answer, congrArg Prod.fst hresolve⟩
  · rcases hc : (r.run cmds).current user false with ⟨found, st⟩
    rw [hc] at hcurrent
    cases hcurrent
    have T := ((tells_run r cmds).of_current hc).2
    rw [resolve, hc] at hanswer
    exact narrows_areaOfQuery T (areaOfQuery_of_resolveIn hanswer)

/-- A den, also called the snug, with a lamp, and a study that goes by another name, too. -/
def snug (other : String) : List Command := [
  .rebuild "ann" [(AreaRecord.new "den" "Den").withAlias "Snug", (AreaRecord.new "study" "Study").withAlias other]
    [Sample.device "light.lamp" [(.primaryName, "Lamp")] "den" "Den"]]

/-- The den of `snug`. -/
def snugDen : Area := .ofRecord ((AreaRecord.new "den" "Den").withAlias "Snug") none

theorem resolve_mentioned_snug :
    let r := Sample.resolver none
    ∃ n h, ((r.run (snug "Library")).current "ann" false).1 = some (n, h) ∧
      h.areas.firstMentioned "snug lamp" = some snugDen ∧
      ∃ answer, (r.resolve "ann" "snug lamp" none none (r.run (snug "Library"))).1 = .ok answer ∧
        answer.areaId = some "den" := by
  intro r
  have hfirst : (((r.run (snug "Library")).current "ann" false).1.map
      fun p => p.2.areas.firstMentioned "snug lamp") = some (some snugDen) := by decide +kernel
  obtain ⟨⟨n, h⟩, hcurrent, hden⟩ := Option.map_eq_some_iff.1 hfirst
  obtain ⟨hanswer, hnarrows⟩ := resolve_mentioned r (snug "Library") "ann" "snug lamp" none none hcurrent
  obtain ⟨answer, hresolve⟩ := hanswer nofun
  have hname : Text.normalize? snugDen.name = some "den" := by decide +kernel
  have hown : ∀ rec ∈ Command.areaLog "ann" (snug "Library"), "den" ∈ rec.normalLabels →
      rec.areaId = snugDen.areaId := by decide +kernel
  exact ⟨n, h, hcurrent, hden, answer, hresolve, (hnarrows answer hresolve).own hden hname hown⟩

/-- When the study is also called the den, a query that mentions the snug leads to the study. -/
theorem resolve_mentioned_elsewhere :
    let r := Sample.resolver none
    (((r.run (snug "Den")).current "ann" false).1.map fun p => p.2.areas.firstMentioned "snug lamp") =
        some (some snugDen) ∧
      (r.resolve "ann" "snug lamp" none none (r.run (snug "Den"))).1.toOption.map (·.areaId) =
        some (some "study") := by
  decide +kernel

end Resolver

end DeviceNaming
