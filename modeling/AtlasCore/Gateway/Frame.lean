import AtlasCore.Gateway.Invoke

/-!
# What the code of the host leaves alone

A property that does not depend on the objects of the host, the world, the budget and the route is
kept by everything the gateway does with these, and by a program if the gateway and the authority
keep it.

The rules are stated once, for any such property, and used for each of the invariants of the
gateway: what is spent, what is logged, and what is open.  A proof about one of these then only has
to look at the steps that touch it.
-/

set_option autoImplicit false

namespace AtlasCore

open Py

variable {H Ref τ : Type} {gateway : Gateway H Ref τ}

/-- `I` does not depend on the state of the host, the budget or the route. -/
structure Indifferent (I : Floor H τ → Prop) : Prop where
  world : ∀ s h, I s → I { s with desk := { s.desk with world := h } }
  budget : ∀ s b, I s → I { s with budget := b }
  route : ∀ s r, I s → I { s with route := r }

section
variable {I : Floor H τ → Prop}

theorem Indifferent.keeps_onHost {α : Type} (hI : Indifferent I) (m : Eff Exc H α) :
    Eff.Keeps I (onHost m) := by
  refine Eff.Keeps.zoom ?_ m
  exact fun h s hs ↦ hI.world s h hs

theorem Indifferent.keeps_onBudget {α : Type} (hI : Indifferent I)
    (m : Eff Exc (H × RunBudget) α) : Eff.Keeps I (onBudget m) := by
  refine Eff.Keeps.zoom ?_ m
  exact fun p s hs ↦ hI.budget _ p.2 (hI.world s p.1 hs)

theorem Indifferent.keeps_new (hI : Indifferent I) (v : PyVal) : Eff.Keeps I (gateway.new v) :=
  Eff.Keeps.read_bind fun s hs ↦ hI.world s _ hs

theorem Indifferent.keeps_copyDict (hI : Indifferent I) (r : Ref) :
    Eff.Keeps I (gateway.copyDict r) :=
  Eff.Keeps.read_bind fun s hs ↦ hI.world s _ hs

theorem keeps_content (r : Ref) : Eff.Keeps I (gateway.content r : FloorM H τ PyVal) :=
  Eff.Keeps.read_bind fun _ hs ↦ hs

/-- If a note does not matter either, entering a handler does not. -/
theorem Indifferent.keeps_enter (hI : Indifferent I)
    (hnote : ∀ s n, I s → I { s with notes := s.notes ++ [n] }) (tool : ToolDefinition H Ref τ)
    (copies : Bool) (arguments : Arguments Ref) (number : Option ℕ) :
    Eff.Keeps I (gateway.enter tool copies arguments number) := by
  have hhand : Eff.Keeps I (gateway.handOver copies arguments) := by
    cases arguments with
    | shared r => exact .ite (fun _ ↦ hI.keeps_copyDict r) fun _ ↦ .pure r
    | own v => exact hI.keeps_new v
  exact hhand.bind fun r ↦ (keeps_content r).bind fun _ ↦
    (Eff.Keeps.update fun s hs ↦ hnote s _ hs).bind fun _ ↦ .pure r

/-- Nor does that an approval became granted. -/
theorem keeps_noteGrant (hnote : ∀ s n, I s → I { s with notes := s.notes ++ [n] })
    (before : Desk H τ) (call : AuthorityCall τ) : Eff.Keeps I (noteGrant before call) := by
  cases call with
  | grant id grantedBy ttl =>
    exact Eff.Keeps.read_bind fun s hs ↦
      Eff.Keeps.ite (fun _ ↦ .update fun s hs ↦ hnote s _ hs) (fun _ ↦ .pure _) s hs
  | _ => exact .pure _

theorem Indifferent.keeps_setRoute (hI : Indifferent I) (route : Str) :
    Eff.Keeps I (setRoute route : FloorM H τ Unit) :=
  .ite (fun _ ↦ .raise _) fun _ ↦ .update fun s hs ↦ hI.route s _ hs

/-- A program keeps what the gateway and the authority keep. -/
theorem Indifferent.keeps_run {β : Type} (hI : Indifferent I) {calls : Calls H Ref τ}
    (hinvoke : ∀ name arguments, Eff.Keeps I (calls.invoke name arguments))
    (hwrite : ∀ name arguments token iteration,
      Eff.Keeps I (calls.invokeWrite name arguments token iteration))
    (hauthority : ∀ call, Eff.Keeps I (gateway.authorityCall call)) (nestedAllowed : Bool) :
    ∀ p : Prog H Ref τ β, Eff.Keeps I (p.run gateway calls nestedAllowed)
  | .ret b => .pure b
  | .raise e => .raise e
  | .host step next => by
    rw [Prog.run]
    refine (Eff.Keeps.update fun s hs ↦ hI.world s _ hs).bind fun _ ↦ ?_
    refine Eff.Keeps.read_bind fun s hs ↦ ?_
    exact hI.keeps_run hinvoke hwrite hauthority nestedAllowed (next s.desk.world) s hs
  | .invoke name arguments next =>
    (hinvoke name arguments).attempt.bind fun r ↦
      hI.keeps_run hinvoke hwrite hauthority nestedAllowed (next r)
  | .contextInvoke name arguments next =>
    .ite
      (fun _ ↦ (hinvoke name arguments).attempt.bind fun r ↦
        hI.keeps_run hinvoke hwrite hauthority nestedAllowed (next r))
      fun _ ↦ hI.keeps_run hinvoke hwrite hauthority nestedAllowed (next (.error .toolDenied))
  | .invokeWrite name arguments token iteration next =>
    (hwrite name arguments token iteration).attempt.bind fun r ↦
      hI.keeps_run hinvoke hwrite hauthority nestedAllowed (next r)
  | .setRoute route next =>
    (hI.keeps_setRoute route).attempt.bind fun r ↦
      hI.keeps_run hinvoke hwrite hauthority nestedAllowed (next r)
  | .authority call next =>
    (hauthority call).attempt.bind fun r ↦
      hI.keeps_run hinvoke hwrite hauthority nestedAllowed (next r)

end

end AtlasCore
