import AtlasCore.Evidence.Reading
import AtlasCore.Lib.Utf8

/-!
# Git, as a proposal runs it

Git is a program outside of this one: what it does to the world and how it ends is what `Site` is
given.  What the proposal asked of it is kept in `Shop.acts`, in the order it was asked.

Git itself is not modelled.  Nothing is assumed of how it answers but that it raises none of the
exceptions that are this program's own, so every theorem about proposals holds of any git, a broken
one included.
-/

set_option autoImplicit false

namespace AtlasCore

open Py

/-- `subprocess.CompletedProcess`, of which the text of an error goes into messages only. -/
structure Completed where
  returncode : ℤ
  stdout : Bytes

/-- A command of git that was run: where, and with which arguments. -/
structure Act where
  cwd : Str
  args : List Str
  deriving DecidableEq

/-- A world, and what was asked of git in it. -/
structure Shop (W : Type) where
  world : W
  acts : List Act

/-- What a proposal finds outside: `subprocess.run` of git in a directory, with its output or the
exception it ends in, which is none of this program. -/
structure Site (W : Type) where
  run : Str → List Str → Eff Exc W Completed
  run_foreign : ∀ cwd args w, (run cwd args w).1 ≠ .error .proposalRefused

variable {W : Type}

/-- A computation with the world, as a step of the shop. -/
def onWorld {α : Type} (m : Eff Exc W α) : Eff Exc (Shop W) α :=
  m.zoom (·.world) fun w s ↦ { s with world := w }

namespace Site

variable (site : Site W)

/-- `_git`: a command is run in a directory, and where it has to succeed, any other end refuses the
proposal. -/
def git (cwd : Str) (args : List Str) (check : Bool) : Eff Exc (Shop W) Completed := do
  Eff.update fun s ↦ { s with acts := s.acts ++ [⟨cwd, args⟩] }
  let result ← onWorld (site.run cwd args)
  if check ∧ result.returncode ≠ 0 then Eff.raise .proposalRefused else return result

/-- A command adds itself to what was asked, and it is up to git how it ends. -/
theorem wp_git {cwd : Str} {args : List Str} {s : Shop W} :
    (site.git cwd args true).wp
      (fun result t ↦ t.acts = s.acts ++ [⟨cwd, args⟩] ∧
        (site.run cwd args s.world).1 = .ok result ∧ result.returncode = 0)
      (fun e t ↦ t.acts = s.acts ++ [⟨cwd, args⟩] ∧
        ((site.run cwd args s.world).1 = .error e ∧ e ≠ .proposalRefused ∨
          e = .proposalRefused ∧
            ∃ result, (site.run cwd args s.world).1 = .ok result ∧ result.returncode ≠ 0)) s := by
  have hforeign := site.run_foreign cwd args s.world
  rw [git, Eff.wp_bind, Eff.wp_update, Eff.wp_bind, onWorld, Eff.wp_zoom]
  refine (Eff.wp_run _ _).mono (fun result w hrun ↦ ?_) fun e w hrun ↦ ?_
  · have hok : (site.run cwd args s.world).1 = .ok result := by rw [hrun]
    refine Eff.wp_ite.mpr ⟨fun hcode ↦ ⟨rfl, .inr ⟨rfl, result, hok, hcode.2⟩⟩, fun hcode ↦ ?_⟩
    exact ⟨rfl, hok, by_contra fun hne ↦ hcode ⟨rfl, hne⟩⟩
  · have herror : (site.run cwd args s.world).1 = .error e := by rw [hrun]
    exact ⟨rfl, .inl ⟨herror, fun he ↦ hforeign (he ▸ herror)⟩⟩

end Site

end AtlasCore
