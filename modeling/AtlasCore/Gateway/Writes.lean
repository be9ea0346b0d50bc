import AtlasCore.Approval.Turns
import AtlasCore.Gateway.Frame

/-!
# Every write was approved

Whatever the host does, in whatever order and however deep, a handler is entered by `invoke` only if
its tool reads, and by `invoke_write` only after that call spent one approval, for the operation
that `describe` made of the content the handler gets.

That there are no more writes than grants needs one thing more.  A forked process works on a copy of
the approvals; what it spends is not spent for its parent, and `ToolContext.invoke` refuses there
but `ToolContext.gateway.invoke_write` does not.  So it holds in every run in which `invoke_write`
is not called in a forked process.
-/

set_option autoImplicit false

namespace AtlasCore

open Py

variable {H Ref τ : Type} {gateway : Gateway H Ref τ}

/-! ## What the notes say

The notes say over all processes what was described, spent and entered, by which call.  The claim
on writes is a statement about these lists. -/

namespace Note

/-- The call of `invoke_write` a note belongs to. -/
def number? : Note → Option ℕ
  | called number _ => some number
  | described number _ _ => some number
  | consumed number _ _ => some number
  | entered _ _ _ number => number
  | granted _ => none

/-- The handler of a write was entered; it names the call of `invoke_write` that entered it. -/
def isWrite : Note → Bool
  | entered _ _ _ (some _) => true
  | _ => false

/-- An approval became granted, in the authority of this process. -/
def isGrant : Note → Bool
  | granted _ => true
  | _ => false

/-- What a call spent: the approval, and the digest of its operation. -/
def spentBy (number : ℕ) : Note → Option (Str × Str)
  | consumed n id sha256 => if n = number then some (id, sha256) else none
  | _ => none

end Note

/-- How many handlers of writes were entered, in this process and in those it forked. -/
def writes (notes : List Note) : ℕ := notes.countP (·.isWrite)

/-- How many approvals became granted. -/
def grants (notes : List Note) : ℕ := notes.countP (·.isGrant)

/-- What a call spent, in order. -/
def spentBy (number : ℕ) (notes : List Note) : List (Str × Str) :=
  notes.filterMap (·.spentBy number)

/-- A forked process called `invoke_write`, on the copy of the authority that it has. -/
def ChildWrites (notes : List Note) : Prop := ∃ number, Note.called number true ∈ notes

/-- Whether a handler may be entered, by what was noted before: by `invoke` if it reads; by a call
of `invoke_write` that spent one approval, and only one, of the operation `describe` returned for
the same content. -/
def Allowed (before : List Note) (capability : Capability) (value : PyVal) : Option ℕ → Prop
  | none => capability = .read
  | some number => capability = .write ∧ ∃ id operation,
      spentBy number before = [(id, operation.sha256)] ∧
      .described number value operation ∈ before

/-- Every handler that was entered was allowed to be. -/
def EveryEntryAllowed (notes : List Note) : Prop :=
  ∀ before tool capability value number after,
    notes = before ++ .entered tool capability value number :: after →
      Allowed before capability value number

/-- At no time were there more writes than grants. -/
def NeverMoreWrites (notes : List Note) : Prop :=
  ∀ before after, notes = before ++ after → writes before ≤ grants before

theorem writes_append (a b : List Note) : writes (a ++ b) = writes a + writes b :=
  List.countP_append

theorem grants_append (a b : List Note) : grants (a ++ b) = grants a + grants b :=
  List.countP_append

theorem ChildWrites.mono {a b : List Note} (h : ChildWrites a) : ChildWrites (a ++ b) := by
  obtain ⟨number, h⟩ := h
  exact ⟨number, List.mem_append_left _ h⟩

theorem NeverMoreWrites.snoc {notes : List Note} {n : Note} (h : NeverMoreWrites notes)
    (hn : writes (notes ++ [n]) ≤ grants (notes ++ [n])) : NeverMoreWrites (notes ++ [n]) := by
  intro before after heq
  rcases List.eq_nil_or_concat after with rfl | ⟨after', z, rfl⟩
  · rw [List.append_nil] at heq
    exact heq ▸ hn
  · rw [List.concat_eq_append, ← List.append_assoc] at heq
    exact h before after' (List.append_inj' heq rfl).1

theorem EveryEntryAllowed.snoc {notes : List Note} {n : Note} (h : EveryEntryAllowed notes)
    (hn : ∀ tool capability value number, n = .entered tool capability value number →
      Allowed notes capability value number) : EveryEntryAllowed (notes ++ [n]) := by
  intro before tool capability value number after heq
  rcases eq_of_snoc_eq heq with ⟨rfl, rfl⟩ | ⟨after', rfl⟩
  · exact hn tool capability value number rfl
  · exact h before tool capability value number after' rfl

/-! ## The invariant

What holds at any time in any process, and what may have happened between two times.  An approval
that is open pays for one write, so the writes and the open approvals together are no more than
the grants. -/

/-- What of the state the notes are about. -/
structure Core (τ : Type) where
  approvals : Approvals τ
  inChild : Bool
  notes : List Note
  calls : ℕ

/-- The core of a state: what of it the invariant speaks about. -/
def Floor.core (s : Floor H τ) : Core τ := ⟨s.desk.approvals, s.inChild, s.notes, s.calls⟩

/-- What holds at any time, in any process. -/
structure Good (c : Core τ) : Prop where
  keyed : Keyed c.approvals
  below : ∀ n ∈ c.notes, ∀ k, n.number? = some k → k < c.calls
  allowed : EveryEntryAllowed c.notes
  bounded : ¬ ChildWrites c.notes →
    NeverMoreWrites c.notes ∧ writes c.notes + openGrants c.approvals ≤ grants c.notes

/-- What may have happened from one time to another: new notes, of new calls, and in a forked
process no write that was not a call of its own. -/
structure Grown (c c' : Core τ) : Prop where
  notes : ∃ more, c'.notes = c.notes ++ more ∧
    (∀ n ∈ more, ∀ k, n.number? = some k → c.calls ≤ k) ∧
    (c.inChild = true → ¬ ChildWrites c'.notes → writes more = 0)
  calls : c.calls ≤ c'.calls
  inChild : c'.inChild = c.inChild

theorem Grown.refl (c : Core τ) : Grown c c :=
  ⟨⟨[], (List.append_nil _).symm, fun _ h ↦ absurd h List.not_mem_nil, fun _ _ ↦ rfl⟩, le_rfl, rfl⟩

theorem Grown.trans {c c' c'' : Core τ} (h : Grown c c') (h' : Grown c' c'') : Grown c c'' := by
  obtain ⟨⟨more, hmore, hnew, hchild⟩, hcalls, hin⟩ := h
  obtain ⟨⟨more', hmore', hnew', hchild'⟩, hcalls', hin'⟩ := h'
  refine ⟨⟨more ++ more', ?_, fun n hn k hk ↦ ?_, fun hc hw ↦ ?_⟩, hcalls.trans hcalls',
    hin'.trans hin⟩
  · rw [hmore', hmore, List.append_assoc]
  · rcases List.mem_append.mp hn with hn | hn
    · exact hnew n hn k hk
    · exact hcalls.trans (hnew' n hn k hk)
  · rw [writes_append, hchild hc fun h ↦ hw (hmore' ▸ h.mono), hchild' (hin.trans hc) hw]

/-- The invariant, since a time: it holds now, and what was noted then is still noted. -/
def Since (c : Core τ) (s : Floor H τ) : Prop := Good s.core ∧ Grown c s.core

theorem Since.refl {s : Floor H τ} (h : Good s.core) : Since s.core s := ⟨h, Grown.refl _⟩

theorem Since.trans {c : Core τ} {s s' : Floor H τ} (h : Since c s) (h' : Since s.core s') :
    Since c s' := ⟨h'.1, h.2.trans h'.2⟩

theorem indifferent_since (c : Core τ) : Indifferent (Since c : Floor H τ → Prop) :=
  ⟨fun _ _ h ↦ h, fun _ _ h ↦ h, fun _ _ h ↦ h⟩

/-- A computation that keeps the invariant from its own start on keeps it from any time on. -/
theorem keeps_since_of {α : Type} {m : FloorM H τ α}
    (h : ∀ s, Good s.core → m.wp (fun _ ↦ Since s.core) (fun _ ↦ Since s.core) s) (c : Core τ) :
    Eff.Keeps (Since c) m := fun s hs ↦
  (h s hs.1).mono (fun _ _ h' ↦ hs.trans h') fun _ _ h' ↦ hs.trans h'

/-! ## Notes

What one note more does to the counts and to the invariant. -/

/-- A note that is neither a write nor a grant. -/
theorem Good.note {c : Core τ} (h : Good c) {n : Note} (hwrite : n.isWrite = false)
    (hgrant : n.isGrant = false) (hnumber : ∀ k, n.number? = some k → k < c.calls)
    (hallowed : ∀ tool capability value number, n = .entered tool capability value number →
      Allowed c.notes capability value number) :
    Good { c with notes := c.notes ++ [n] } where
  keyed := h.keyed
  below := by
    intro m hm k hk
    rcases List.mem_append.mp hm with hm | hm
    · exact h.below m hm k hk
    · rw [List.mem_singleton] at hm
      exact hnumber k (hm ▸ hk)
  allowed := h.allowed.snoc hallowed
  bounded := by
    intro hnot
    obtain ⟨hnever, hle⟩ := h.bounded fun hc ↦ hnot hc.mono
    have hw : writes [n] = 0 := by rw [writes, List.countP_singleton, hwrite]; rfl
    have hg : grants [n] = 0 := by rw [grants, List.countP_singleton, hgrant]; rfl
    have hsame : writes (c.notes ++ [n]) = writes c.notes ∧
        grants (c.notes ++ [n]) = grants c.notes := by
      rw [writes_append, grants_append, hw, hg]
      exact ⟨rfl, rfl⟩
    refine ⟨hnever.snoc ?_, ?_⟩
    · rw [hsame.1, hsame.2]
      omega
    · show writes (c.notes ++ [n]) + _ ≤ grants (c.notes ++ [n])
      rw [hsame.1, hsame.2]
      exact hle

theorem Grown.note {c c' : Core τ} (h : Grown c c') {n : Note}
    (hnumber : ∀ k, n.number? = some k → c.calls ≤ k)
    (hwrite : n.isWrite = false ∨ (c.inChild = true → ChildWrites c'.notes)) :
    Grown c { c' with notes := c'.notes ++ [n] } := by
  obtain ⟨⟨more, hmore, hnew, hchild⟩, hcalls, hin⟩ := h
  refine ⟨⟨more ++ [n], ?_, fun m hm k hk ↦ ?_, fun hc hw ↦ ?_⟩, hcalls, hin⟩
  · rw [← List.append_assoc, ← hmore]
  · rcases List.mem_append.mp hm with hm | hm
    · exact hnew m hm k hk
    · rw [List.mem_singleton] at hm
      exact hnumber k (hm ▸ hk)
  · have hbefore : ¬ ChildWrites c'.notes := fun h ↦ hw h.mono
    rcases hwrite with hwrite | hwrite
    · rw [writes_append, hchild hc hbefore, writes, List.countP_singleton, hwrite]
      rfl
    · exact absurd (hwrite hc) hbefore

/-! ## The authority

A grant opens one approval, a consumption takes one, and nothing else changes how many are open. -/

theorem Good.turn {c : Core τ} (h : Good c) {a : Approvals τ} (hturns : Turns c.approvals a)
    (hopen : openGrants a ≤ openGrants c.approvals) : Good { c with approvals := a } where
  keyed := hturns.keyed h.keyed
  below := h.below
  allowed := h.allowed
  bounded := fun hnot ↦ ⟨(h.bounded hnot).1,
    (Nat.add_le_add_left hopen _).trans (h.bounded hnot).2⟩

theorem Good.grant {c : Core τ} (h : Good c) {a : Approvals τ} (hturns : Turns c.approvals a)
    (hopen : openGrants a ≤ openGrants c.approvals + 1) (id : Str) :
    Good { c with approvals := a, notes := c.notes ++ [.granted id] } where
  keyed := hturns.keyed h.keyed
  below := by
    intro m hm k hk
    rcases List.mem_append.mp hm with hm | hm
    · exact h.below m hm k hk
    · rw [List.mem_singleton.mp hm] at hk
      cases hk
  allowed := h.allowed.snoc nofun
  bounded := by
    intro hnot
    obtain ⟨hnever, hle⟩ := h.bounded fun hc ↦ hnot hc.mono
    have hsame : writes (c.notes ++ [.granted id]) = writes c.notes ∧
        grants (c.notes ++ [.granted id]) = grants c.notes + 1 := by
      rw [writes_append, grants_append]
      exact ⟨rfl, rfl⟩
    refine ⟨hnever.snoc ?_, ?_⟩
    · rw [hsame.1, hsame.2]
      omega
    · show writes (c.notes ++ [.granted id]) + openGrants a ≤ grants (c.notes ++ [.granted id])
      rw [hsame.1, hsame.2]
      omega

theorem keeps_authorityCall (c : Core τ) (call : AuthorityCall τ) :
    Eff.Keeps (Since c) (gateway.authorityCall call) := by
  refine keeps_since_of (fun s hs ↦ ?_) c
  have hrefl := Since.refl hs
  rw [Gateway.authorityCall]
  cases gateway.approvals with
  | none => exact hrefl
  | some office =>
    simp only
    rw [Eff.wp_bind, Eff.wp_read, Eff.wp_bind, Eff.wp_attempt, onDesk, Eff.wp_zoom]
    -- what the call did, whichever way it ended
    have hafter : ∀ (outcome : Except Exc Str) (d : Desk H τ),
        (Turns s.desk.approvals d.approvals ∧
          ∀ x, NewlyGranted s.desk d x → ∃ grantedBy ttl, call = .grant x grantedBy ttl) →
        (do
          noteGrant s.desk call
          Eff.ofExcept outcome : FloorM H τ Str).wp (fun _ ↦ Since s.core) (fun _ ↦ Since s.core)
            { s with desk := d } := by
      rintro outcome d ⟨hturns, hgrants⟩
      have hgrown : Grown s.core { s.core with approvals := d.approvals } :=
        ⟨(Grown.refl s.core).notes, le_rfl, rfl⟩
      have hend : ∀ t, Since s.core t → (Eff.ofExcept outcome : FloorM H τ Str).wp
          (fun _ ↦ Since s.core) (fun _ ↦ Since s.core) t := fun t ht ↦ Eff.Keeps.ofExcept _ t ht
      have hclosed : (∀ x, ¬ NewlyGranted s.desk d x) → Since s.core { s with desk := d } := by
        intro hnone
        refine ⟨hs.turn hturns ?_, hgrown⟩
        rcases hturns.openGrants_le hs.keyed with hle | ⟨-, id, item, item', hget, hwas, hget',
          hnow⟩
        · exact hle
        · refine absurd ⟨?_, ?_⟩ (hnone id)
          · exact (congrArg (Option.map _) hget).trans (congrArg some hwas)
          · exact (congrArg (Option.map _) hget').trans (congrArg some hnow)
      rw [Eff.wp_bind]
      cases call with
      | grant id grantedBy ttl =>
        rw [noteGrant, Eff.wp_bind, Eff.wp_read]
        refine Eff.wp_ite.mpr ⟨fun hnew ↦ Eff.wp_update.mpr (hend _ ⟨?_, ?_⟩), fun hold ↦ ?_⟩
        · refine hs.grant hturns ?_ id
          rcases hturns.openGrants_le hs.keyed with hle | ⟨hle, -⟩
          · exact hle.trans (Nat.le_succ _)
          · exact hle.le
        · exact hgrown.note nofun (.inl rfl)
        · refine hend _ (hclosed fun x hx ↦ hold ?_)
          obtain ⟨grantedBy', ttl', heq⟩ := hgrants x hx
          cases heq
          exact hx
      | _ =>
        refine hend _ (hclosed fun x hx ↦ ?_)
        obtain ⟨grantedBy', ttl', heq⟩ := hgrants x hx
        cases heq
    exact (wp_perform_turns call hs.keyed).mono (fun r d h ↦ hafter (.ok r) d h)
      fun e d h ↦ hafter (.error e) d h

/-! ## Entering a handler

What the invariant asks for when a handler is entered, and that it holds afterwards. -/

/-- What entering does: the object is handed over, and the entry is noted with its content. -/
theorem wp_enter (tool : ToolDefinition H Ref τ) (copies : Bool) (arguments : Arguments Ref)
    (number : Option ℕ) (s : Floor H τ) :
    (gateway.enter tool copies arguments number).wp
      (fun _ s' ↦ ∃ value, (∀ v, arguments = .own v → value = v) ∧ s'.core =
        { s.core with notes := s.notes ++ [.entered tool.name tool.capability value number] })
      (fun _ _ ↦ False) s := by
  cases arguments with
  | shared r =>
    cases copies with
    | false => exact ⟨gateway.view r s.desk.world, nofun, rfl⟩
    | true => exact ⟨_, nofun, rfl⟩
  | own v =>
    refine ⟨_, fun w hw ↦ ?_, rfl⟩
    cases hw
    exact gateway.view_alloc v s.desk.world

/-- A handler may be entered: what is noted then leaves the invariant as it is. -/
def MayEnter (c : Core τ) (tool : ToolDefinition H Ref τ) (arguments : Arguments Ref)
    (number : Option ℕ) (s : Floor H τ) : Prop :=
  ∀ value, (∀ v, arguments = .own v → value = v) → ∀ s' : Floor H τ, s'.core =
    { s.core with notes := s.notes ++ [.entered tool.name tool.capability value number] } →
      Since c s'

/-- What a tool that reads is entered with may be anything. -/
theorem mayEnter_read {c : Core τ} {tool : ToolDefinition H Ref τ} (hread : tool.capability = .read)
    {s : Floor H τ} (hs : Since c s) (arguments : Arguments Ref) :
    MayEnter c tool arguments none s := by
  intro value _ s' heq
  rw [Since, heq]
  refine ⟨hs.1.note rfl rfl nofun fun tool' capability' value' number' h ↦ ?_,
    hs.2.note nofun (.inl rfl)⟩
  cases h
  exact hread

/-- What the gateway keeps one frame down, which is what a handler can do by calling it again. -/
structure CallsSafe (calls : Calls H Ref τ) : Prop where
  invoke : ∀ (c : Core τ) name arguments, Eff.Keeps (Since c) (calls.invoke name arguments)
  invokeWrite : ∀ (c : Core τ) name arguments token iteration,
    Eff.Keeps (Since c) (calls.invokeWrite name arguments token iteration)

/-- When a child has ended, its parent has the approvals it had, and the notes of both. -/
theorem Good.rejoin {c₁ c₂ : Core τ} (h₁ : Good c₁) (h₂ : Good c₂)
    (hgrown : Grown { c₁ with inChild := true } c₂) :
    Good { c₁ with notes := c₂.notes, calls := c₂.calls } where
  keyed := h₁.keyed
  below := h₂.below
  allowed := h₂.allowed
  bounded := by
    intro hnot
    obtain ⟨more, hmore, -, hchild⟩ := hgrown.notes
    have hnone : writes more = 0 := hchild rfl hnot
    have hmore : c₂.notes = c₁.notes ++ more := hmore
    obtain ⟨-, hle⟩ := h₁.bounded fun hc ↦ hnot (hmore ▸ hc.mono)
    refine ⟨(h₂.bounded hnot).1, ?_⟩
    show writes c₂.notes + openGrants c₁.approvals ≤ grants c₂.notes
    rw [hmore, writes_append, grants_append, hnone]
    omega

theorem Grown.rejoin {c₁ c₂ : Core τ} (h : Grown { c₁ with inChild := true } c₂) :
    Grown c₁ { c₁ with notes := c₂.notes, calls := c₂.calls } := by
  obtain ⟨⟨more, hmore, hnew, hchild⟩, hcalls, -⟩ := h
  exact ⟨⟨more, hmore, hnew, fun _ ↦ hchild rfl⟩, hcalls, rfl⟩

section
variable {calls : Calls H Ref τ} (hcalls : CallsSafe calls)
include hcalls

theorem keeps_run {β : Type} (c : Core τ) (nestedAllowed : Bool) (p : Prog H Ref τ β) :
    Eff.Keeps (Since c) (p.run gateway calls nestedAllowed) :=
  (indifferent_since c).keeps_run (hcalls.invoke c) (hcalls.invokeWrite c) (keeps_authorityCall c)
    nestedAllowed p

theorem wp_runChild {c : Core τ} {tool : ToolDefinition H Ref τ} (killed : Option ℕ)
    {arguments : Arguments Ref} {number : Option ℕ} {s : Floor H τ}
    (hmay : MayEnter c tool arguments number s) :
    (gateway.runChild calls tool killed arguments number).wp (fun _ ↦ Since c)
      (fun _ ↦ Since c) s := by
  rw [Gateway.runChild, Eff.wp_bind, Eff.wp_read, Eff.wp_bind]
  refine (wp_enter tool false arguments number s).mono (fun r s₁ hentered ↦ ?_)
    fun _ _ h ↦ h.elim
  obtain ⟨value, hvalue, hcore⟩ := hentered
  have hs₁ := hmay value hvalue s₁ hcore
  have happrovals : s₁.core.approvals = s.desk.approvals := by rw [hcore]; rfl
  have hchild : s₁.core.inChild = s.inChild := by rw [hcore]; rfl
  -- the child starts with the notes of the parent and is a time of its own
  have hforked : Good { s₁.core with inChild := true } :=
    ⟨hs₁.1.keyed, hs₁.1.below, hs₁.1.allowed, hs₁.1.bounded⟩
  rw [Eff.wp_bind, Eff.wp_update, Eff.wp_bind, Eff.wp_attempt]
  have hjoined : ∀ s₂ : Floor H τ, Since { s₁.core with inChild := true } s₂ →
      Since c { s with
        desk := { s.desk with world := gateway.rejoin s.desk.world s₂.desk.world }
        notes := s₂.notes
        calls := s₂.calls } := by
    intro s₂ hs₂
    have hgood := hs₁.1.rejoin hs₂.1 hs₂.2
    have hgrown := hs₁.2.trans hs₂.2.rejoin
    rw [happrovals, hchild] at hgood hgrown
    exact ⟨hgood, hgrown⟩
  exact (keeps_run hcalls { s₁.core with inChild := true } false _ _ (Since.refl hforked)).mono
    (fun r s₂ h ↦ hjoined s₂ h) fun e s₂ h ↦ hjoined s₂ h

/-- A handler that may be entered now, and that may be entered after any step of the gateway that
touches no approval and notes nothing. -/
theorem wp_execute {c : Core τ} {tool : ToolDefinition H Ref τ} {arguments : Arguments Ref}
    {number : Option ℕ} {s : Floor H τ} (hs : Since c s)
    (hmay : ∀ s' : Floor H τ, s'.core = s.core → MayEnter c tool arguments number s') :
    (gateway.execute calls tool arguments number).wp (fun _ ↦ Since c) (fun _ ↦ Since c) s := by
  have hsame : Indifferent fun t : Floor H τ ↦ t.core = s.core :=
    ⟨fun _ _ h ↦ h, fun _ _ h ↦ h, fun _ _ h ↦ h⟩
  have hkeep : ∀ t : Floor H τ, t.core = s.core → Since c t := fun t ht ↦ by
    rw [Since, ht]
    exact hs
  rw [Gateway.execute]
  refine Eff.wp_ite.mpr ⟨fun _ ↦ ?_, fun _ ↦ ?_⟩
  · rw [Gateway.runIsolated]
    refine Eff.wp_ite.mpr ⟨fun _ ↦ hs, fun _ ↦ ?_⟩
    rw [Eff.wp_bind]
    refine (hsame.keeps_onBudget _ s rfl).mono (fun _ s₁ h₁ ↦ ?_) fun _ t h ↦ hkeep t h
    rw [Eff.wp_bind]
    refine (hsame.keeps_onHost _ s₁ h₁).mono (fun ending s₂ h₂ ↦ ?_) fun _ t h ↦ hkeep t h
    cases ending with
    | notStarted e => exact hkeep s₂ h₂
    | killed steps =>
      rw [Eff.wp_bind]
      exact (wp_runChild hcalls _ (hmay s₂ h₂)).mono (fun _ _ h ↦ h) fun _ _ h ↦ h
    | lost e =>
      rw [Eff.wp_bind]
      exact (wp_runChild hcalls _ (hmay s₂ h₂)).mono (fun _ _ h ↦ h) fun _ _ h ↦ h
    | answered =>
      rw [Eff.wp_bind]
      refine (wp_runChild hcalls _ (hmay s₂ h₂)).mono (fun answer s₃ h₃ ↦ ?_) fun _ _ h ↦ h
      cases answer with
      | ok answer => exact (indifferent_since c).keeps_new _ s₃ h₃
      | error e => exact h₃
  · rw [Eff.wp_bind]
    refine (hsame.keeps_onHost _ s rfl).mono (fun started s₁ h₁ ↦ ?_) fun _ t h ↦ hkeep t h
    rw [Eff.wp_bind]
    refine (wp_enter tool true arguments number s₁).mono (fun r s₂ ⟨value, hvalue, hcore⟩ ↦ ?_)
      fun _ _ h ↦ h.elim
    have hs₂ := hmay s₁ h₁ value hvalue s₂ hcore
    have hrest : Eff.Keeps (Since c) (do
        let result ← (tool.handler r).run gateway calls true
        let finished ← onHost gateway.monotonic
        if finished - started > tool.timeoutSeconds then Eff.raise .toolTimeout
        else return result) :=
      (keeps_run hcalls c true _).bind fun _ ↦ ((indifferent_since c).keeps_onHost _).bind fun _ ↦
        .ite (fun _ ↦ .raise _) fun _ ↦ .pure _
    exact hrest s₂ hs₂

theorem wp_carryOut {c : Core τ} {tool : ToolDefinition H Ref τ} {arguments : Arguments Ref}
    {number : Option ℕ} {s : Floor H τ} (hs : Since c s)
    (hmay : ∀ s' : Floor H τ, s'.core = s.core → MayEnter c tool arguments number s') :
    (gateway.carryOut calls tool arguments number).wp (fun _ ↦ Since c) (fun _ ↦ Since c) s := by
  have hI := indifferent_since (H := H) c
  rw [Gateway.carryOut, Eff.wp_bind]
  refine (wp_execute hcalls hs hmay).mono (fun result s₁ h₁ ↦ ?_) fun _ _ h ↦ h
  have hrest : Eff.Keeps (Since c) (do
      onBudget (RunBudget.check gateway.meter)
      let v ← gateway.content result
      let serialized ← Eff.ofExcept (v.dumps gateway.nesting)
      Eff.ofExcept (v.validateSchema gateway.equal tool.outputSchema)
      onBudget (RunBudget.chargeOutput gateway.meter serialized)
      return result) :=
    (hI.keeps_onBudget _).bind fun _ ↦ (keeps_content _).bind fun _ ↦
      (Eff.Keeps.ofExcept _).bind fun _ ↦ (Eff.Keeps.ofExcept _).bind fun _ ↦
        (hI.keeps_onBudget _).bind fun _ ↦ .pure _
  exact hrest s₁ h₁

end

/-! ## The log

Writing to the log changes no approval and leaves no note. -/

theorem core_setLog (log : EventLog) (s : Floor H τ) : (gateway.setLog log s).core = s.core := by
  rw [Gateway.setLog]
  split <;> rfl

theorem keeps_onLog {α : Type} (c : Core τ) (log : EventLog) (m : Eff Exc (H × EventLog) α) :
    Eff.Keeps (Since c) (gateway.onLog log m) := by
  refine Eff.Keeps.zoom ?_ m
  intro p s hs
  rw [Since, core_setLog]
  exact hs

theorem keeps_startCall (c : Core τ) (tool : Option (ToolDefinition H Ref τ)) (name : Str)
    (callInput : Eff Exc H (Option Str)) (attempt : ℕ) :
    Eff.Keeps (Since c) (gateway.startCall tool name callInput attempt) := by
  refine Eff.Keeps.read_bind fun s hs ↦ ?_
  cases gateway.log s with
  | none => exact hs
  | some log => exact ((keeps_onLog c log _).bind fun _ ↦ .pure _) s hs

theorem keeps_finish (c : Core τ) (call : Option Str) (outcome : CallOutcome)
    (error : Option Str) : Eff.Keeps (Since c) (gateway.finish call outcome error) := by
  refine Eff.Keeps.read_bind fun s hs ↦ ?_
  cases gateway.log s with
  | none => exact hs
  | some log =>
    cases call with
    | none => exact hs
    | some callId => exact keeps_onLog c log _ s hs

theorem keeps_deny {α : Type} (c : Core τ) (call : Option Str) (reason : Str) (e : Exc) :
    Eff.Keeps (Since c) (gateway.deny call reason e : FloorM H τ α) :=
  (keeps_finish c call _ _).bind fun _ ↦ .raise e

/-! ## `invoke`

A tool that is reached through `invoke` reads, so no write is entered there. -/

section
variable {calls : Calls H Ref τ} (hcalls : CallsSafe calls)
include hcalls

theorem keeps_invokeAttempts (c : Core τ) {tool : ToolDefinition H Ref τ}
    (hread : tool.capability = .read) (name : Str) (arguments : Ref) :
    ∀ (left attempt : ℕ) (first : Option Str),
      Eff.Keeps (Since c) (gateway.invokeAttempts calls tool name arguments left attempt first)
  | 0, _, _ => .raise _
  | left + 1, attempt, first => by
    have hI := indifferent_since (H := H) c
    rw [Gateway.invokeAttempts_succ]
    have hattempt : ∀ call, Eff.Keeps (Since c)
        (gateway.attemptOnce calls tool name arguments left attempt call) := by
      intro call
      refine (hI.keeps_onBudget _).attempt.bind fun reserved ↦ ?_
      cases reserved with
      | error e => exact .ite (fun _ ↦ keeps_deny c call _ e) fun _ ↦ .raise e
      | ok _ =>
        have hcarry : Eff.Keeps (Since c)
            (gateway.carryOut calls tool (.shared arguments) none) := fun s hs ↦
          wp_carryOut hcalls hs fun s' hs' ↦
            mayEnter_read hread (show Since c s' by rw [Since, hs']; exact hs) _
        refine hcarry.attempt.bind fun carried ↦ ?_
        cases carried with
        | ok result => exact (keeps_finish c call _ _).bind fun _ ↦ .pure result
        | error e =>
          refine .ite (fun _ ↦ .raise e) fun _ ↦ (keeps_finish c call _ _).bind fun _ ↦ ?_
          exact .ite (fun _ ↦ keeps_invokeAttempts c hread name arguments left (attempt + 1) call)
            fun _ ↦ .raise _
    refine .ite (fun _ ↦ ?_) fun _ ↦ ?_
    · exact (keeps_startCall c _ _ _ _).bind hattempt
    · exact (Eff.Keeps.pure first).bind hattempt

theorem keeps_invoke (c : Core τ) (name : Str) (arguments : Option Ref) :
    Eff.Keeps (Since c) (gateway.invoke calls name arguments) := by
  have hI := indifferent_since (H := H) c
  unfold Gateway.invoke
  refine (hI.keeps_onBudget _).bind fun _ ↦ (keeps_startCall c _ _ _ _).bind fun call ↦ ?_
  cases gateway.tool name with
  | none => exact keeps_deny c call _ _
  | some tool =>
    refine .ite (fun _ ↦ keeps_deny c call _ _) fun hread ↦ ?_
    refine Eff.Keeps.read_bind fun s hs ↦ ?_
    refine Eff.Keeps.ite (fun _ ↦ keeps_deny c call _ _) (fun _ ↦ ?_) s hs
    rcases arguments with _ | r
    on_goal 1 => refine (hI.keeps_new _).bind ?_
    on_goal 2 => refine (Eff.Keeps.pure r).bind ?_
    all_goals
      intro given
      refine (keeps_content given).bind fun v ↦ .ite (fun _ ↦ keeps_deny c call _ _) fun _ ↦ ?_
      split
      · exact keeps_deny c call _ _
      · exact .raise _
      · exact keeps_invokeAttempts hcalls c (not_not.mp hread) name given _ _ call

end

/-! ## `invoke_write`

The consumption comes between the description and the entry, and is of what was described. -/

/-- Only a tool that writes is let through. -/
theorem Gateway.capability_of_admitCall {name : Str} {wellFormed : Bool} {snapshot : Option Json}
    {route : Option Str}
    {p : ToolDefinition H Ref τ × (Ref → Prog H Ref τ Operation) × Office H τ × Json}
    (h : gateway.admitCall name wellFormed snapshot route = .ok p) : p.1.capability = .write := by
  rw [admitCall] at h
  cases htool : gateway.tool name with
  | none =>
    rw [htool] at h
    cases h
  | some tool =>
    rw [htool] at h
    simp only at h
    split at h
    · rename_i hwrite _
      split at h
      · cases h
      · split at h
        · cases h
        · split at h
          · cases h
          · split at h
            · cases h
            · cases h
              exact hwrite
    · cases h

theorem spentBy_append (number : ℕ) (a b : List Note) :
    spentBy number (a ++ b) = spentBy number a ++ spentBy number b := List.filterMap_append

/-- Notes of other calls spend nothing for this one. -/
theorem spentBy_eq_nil {number : ℕ} {notes : List Note}
    (h : ∀ n ∈ notes, ∀ k, n.number? = some k → k ≠ number) : spentBy number notes = [] := by
  rw [spentBy, List.filterMap_eq_nil_iff]
  intro n hn
  cases n with
  | consumed k id sha256 => exact if_neg (h _ hn k rfl)
  | _ => rfl

/-- The call that began at `c` has spent nothing yet. -/
structure Unspent (c : Core τ) (s : Floor H τ) : Prop where
  since : Since c s
  child : c.inChild = true → ChildWrites s.notes
  begun : c.calls < s.calls
  unspent : spentBy c.calls s.notes = []

/-- The call that began at `c` has spent one approval, for an operation described for `value`. -/
structure Spent (c : Core τ) (value : PyVal) (s : Floor H τ) : Prop where
  since : Since c s
  child : c.inChild = true → ChildWrites s.notes
  begun : c.calls < s.calls
  spent : ∃ id operation, spentBy c.calls s.notes = [(id, operation.sha256)] ∧
    .described c.calls value operation ∈ s.notes
  room : ¬ ChildWrites s.notes → writes s.notes + openGrants s.desk.approvals + 1 ≤ grants s.notes

theorem indifferent_unspent (c : Core τ) : Indifferent (Unspent c : Floor H τ → Prop) :=
  ⟨fun _ _ h ↦ ⟨h.1, h.2, h.3, h.4⟩, fun _ _ h ↦ ⟨h.1, h.2, h.3, h.4⟩,
    fun _ _ h ↦ ⟨h.1, h.2, h.3, h.4⟩⟩

theorem indifferent_spent (c : Core τ) (value : PyVal) :
    Indifferent (Spent c value : Floor H τ → Prop) :=
  ⟨fun _ _ h ↦ ⟨h.1, h.2, h.3, h.4, h.5⟩, fun _ _ h ↦ ⟨h.1, h.2, h.3, h.4, h.5⟩,
    fun _ _ h ↦ ⟨h.1, h.2, h.3, h.4, h.5⟩⟩

/-- What goes on from here spends nothing for a call that has begun. -/
theorem Unspent.later {c : Core τ} {s s' : Floor H τ} (h : Unspent c s) (h' : Since s.core s') :
    Unspent c s' := by
  obtain ⟨more, hmore, hnew, -⟩ := h'.2.notes
  have hmore : s'.notes = s.notes ++ more := hmore
  refine ⟨h.since.trans h', fun hc ↦ hmore ▸ (h.child hc).mono, h.begun.trans_le h'.2.calls, ?_⟩
  rw [hmore, spentBy_append, h.unspent, List.nil_append]
  refine spentBy_eq_nil fun n hn k hk heq ↦ ?_
  have hle := hnew n hn k hk
  exact absurd (heq ▸ h.begun) (Nat.not_lt.mpr hle)

theorem keeps_unspent {α : Type} {m : FloorM H τ α} (hm : ∀ c, Eff.Keeps (Since c) m)
    (c : Core τ) : Eff.Keeps (Unspent c) m := fun s hs ↦
  (hm s.core s (Since.refl hs.since.1)).mono (fun _ _ h ↦ hs.later h) fun _ _ h ↦ hs.later h

/-- The call begins with a number of its own. -/
theorem wp_begin {s : Floor H τ} (hs : Good s.core) :
    (Gateway.begin : FloorM H τ ℕ).wp (fun number s' ↦ number = s.calls ∧ Unspent s.core s')
      (fun _ _ ↦ False) s := by
  have hmore : Good { s.core with calls := s.calls + 1 } :=
    ⟨hs.keyed, fun n hn k hk ↦ (hs.below n hn k hk).trans (Nat.lt_succ_self _), hs.allowed,
      hs.bounded⟩
  have hgrown : Grown s.core { s.core with calls := s.calls + 1 } :=
    ⟨(Grown.refl s.core).notes, Nat.le_succ _, rfl⟩
  refine ⟨rfl, ⟨hmore.note rfl rfl ?_ nofun, hgrown.note ?_ (.inl rfl)⟩, fun hc ↦ ?_,
    Nat.lt_succ_self _, ?_⟩
  · rintro k ⟨⟩
    exact Nat.lt_succ_self _
  · rintro k ⟨⟩
    exact le_rfl
  · refine ⟨s.calls, List.mem_append_right _ ?_⟩
    rw [List.mem_singleton]
    have hc : s.inChild = true := hc
    rw [hc]
  · show spentBy s.calls (s.notes ++ [.called s.calls s.inChild]) = []
    have hnone : spentBy s.calls s.notes = [] :=
      spentBy_eq_nil fun n hn k hk ↦ (hs.below n hn k hk).ne
    rw [spentBy_append, hnone]
    rfl

/-- A description is noted. -/
theorem Unspent.described {c : Core τ} {s : Floor H τ} (h : Unspent c s) (value : PyVal)
    (operation : Operation) :
    Unspent c { s with notes := s.notes ++ [.described c.calls value operation] } := by
  refine ⟨⟨h.since.1.note rfl rfl ?_ nofun, h.since.2.note ?_ (.inl rfl)⟩,
    fun hc ↦ (h.child hc).mono, h.begun, ?_⟩
  · rintro k ⟨⟩
    exact h.begun
  · rintro k ⟨⟩
    exact le_rfl
  · rw [spentBy_append, h.unspent]
    rfl

/-- Spending is noted, with the digest of the operation that was described. -/
theorem Unspent.consumed {c : Core τ} {s t : Floor H τ} {value : PyVal} {operation : Operation}
    {id sha256 : Str} (h : Unspent c s) (hdescribed : .described c.calls value operation ∈ s.notes)
    (hspends : Consumes s.desk.approvals operation id t.desk.approvals)
    (hsame : t.inChild = s.inChild ∧ t.notes = s.notes ∧ t.calls = s.calls)
    (hsha : sha256 = operation.sha256) :
    Spent c value { t with notes := t.notes ++ [.consumed c.calls id sha256] } := by
  have hopen := hspends.openGrants h.since.1.keyed
  have hcore : t.core = { s.core with approvals := t.desk.approvals } := by
    rw [Floor.core, hsame.1, hsame.2.1, hsame.2.2]
    rfl
  have hgood : Good t.core := by
    rw [hcore]
    refine h.since.1.turn hspends.turns ?_
    show openGrants t.desk.approvals ≤ openGrants s.desk.approvals
    omega
  have hgrown : Grown c t.core := by
    rw [hcore]
    exact ⟨h.since.2.notes, h.since.2.calls, h.since.2.inChild⟩
  have hbelow : c.calls < t.calls := hsame.2.2 ▸ h.begun
  refine ⟨⟨hgood.note rfl rfl ?_ nofun, hgrown.note ?_ (.inl rfl)⟩, fun hc ↦ ?_, hbelow,
    ⟨id, operation, ?_, ?_⟩, fun hnot ↦ ?_⟩
  · rintro k ⟨⟩
    exact hbelow
  · rintro k ⟨⟩
    exact le_rfl
  · rw [hsame.2.1]
    exact (h.child hc).mono
  · rw [spentBy_append, hsame.2.1, h.unspent, hsha]
    simp [spentBy, Note.spentBy]
  · rw [hsame.2.1]
    exact List.mem_append_left _ hdescribed
  · have hnot' : ¬ ChildWrites s.notes := fun hc ↦ hnot (by
      rw [hsame.2.1]
      exact hc.mono)
    have hroom := (h.since.1.bounded hnot').2
    have hroom : writes s.notes + openGrants s.desk.approvals ≤ grants s.notes := hroom
    show writes (t.notes ++ _) + openGrants t.desk.approvals + 1 ≤ grants (t.notes ++ _)
    rw [writes_append, grants_append, hsame.2.1]
    have hw : writes [.consumed c.calls id sha256] = 0 := rfl
    omega

/-- Once an approval is spent, the handler may be entered with the content that was described. -/
theorem Spent.mayEnter {c : Core τ} {tool : ToolDefinition H Ref τ} {value : PyVal}
    (hwrite : tool.capability = .write) {s : Floor H τ} (h : Spent c value s) :
    MayEnter c tool (.own value) (some c.calls) s := by
  intro entered hentered s' heq
  obtain rfl := hentered value rfl
  obtain ⟨id, operation, hspent, hdescribed⟩ := h.spent
  have hallowed : Allowed s.notes tool.capability entered (some c.calls) :=
    ⟨hwrite, id, operation, hspent, hdescribed⟩
  rw [Since, heq]
  refine ⟨⟨h.since.1.keyed, fun n hn k hk ↦ ?_, h.since.1.allowed.snoc ?_, fun hnot ↦ ?_⟩,
    h.since.2.note ?_ (.inr h.child)⟩
  · rcases List.mem_append.mp hn with hn | hn
    · exact h.since.1.below n hn k hk
    · rw [List.mem_singleton.mp hn] at hk
      cases hk
      exact h.begun
  · intro tool' capability' value' number' h'
    cases h'
    exact hallowed
  · have hnot' : ¬ ChildWrites s.notes := fun hc ↦ hnot hc.mono
    have hroom := h.room hnot'
    have hsame : ∀ n : Note, n.isWrite = true → n.isGrant = false →
        writes (s.notes ++ [n]) = writes s.notes + 1 ∧
          grants (s.notes ++ [n]) = grants s.notes := by
      intro n hw hg
      rw [writes_append, grants_append, writes, writes, grants, grants, List.countP_singleton,
        List.countP_singleton, hw, hg]
      exact ⟨rfl, rfl⟩
    obtain ⟨hw, hg⟩ := hsame (.entered tool.name tool.capability entered (some c.calls)) rfl rfl
    refine ⟨(h.since.1.bounded hnot').1.snoc ?_, ?_⟩
    · show writes (s.notes ++ _) ≤ grants (s.notes ++ _)
      rw [hw, hg]
      omega
    · show writes (s.notes ++ _) + openGrants s.desk.approvals ≤ grants (s.notes ++ _)
      rw [hw, hg]
      omega
  · rintro k ⟨⟩
    exact le_rfl

section
variable {calls : Calls H Ref τ} (hcalls : CallsSafe calls)
include hcalls

theorem wp_describeCall {c : Core τ} {name : Str} {describe : Ref → Prog H Ref τ Operation}
    {snapshot : Json} {s : Floor H τ} (hs : Unspent c s) :
    (gateway.describeCall calls name describe snapshot c.calls).wp
      (fun operation s' ↦ Unspent c s' ∧
        .described c.calls (.ofJson snapshot) operation ∈ s'.notes)
      (fun _ ↦ Unspent c) s := by
  rw [Gateway.describeCall, Eff.wp_bind]
  refine Eff.wp_bind.mpr
    (Eff.wp_read.mpr (Eff.wp_bind.mpr (Eff.wp_update.mpr (Eff.wp_pure.mpr ?_))))
  rw [Eff.wp_bind, Gateway.content, Eff.wp_bind, Eff.wp_read, Eff.wp_pure]
  simp only [gateway.view_alloc]
  rw [Eff.wp_bind]
  have hrun : Eff.Keeps (Unspent c)
      ((describe (gateway.alloc (.ofJson snapshot) s.desk.world).1).run gateway calls true) :=
    keeps_unspent (fun c ↦ keeps_run hcalls c true _) c
  refine (hrun _ ((indifferent_unspent c).world s _ hs)).mono (fun operation s₁ h₁ ↦ ?_)
    fun _ _ h ↦ h
  have h₂ := h₁.described (.ofJson snapshot) operation
  rw [Eff.wp_bind, takeNote, Eff.wp_update]
  refine Eff.wp_ite.mpr ⟨fun _ ↦ h₂, fun _ ↦ ⟨h₂, ?_⟩⟩
  exact List.mem_append_right _ (List.mem_singleton.mpr rfl)

omit hcalls in
theorem wp_spendFor {c : Core τ} {office : Office H τ} {token : Str} {operation : Operation}
    {iteration : ℤ} {value : PyVal} {s : Floor H τ} (hs : Unspent c s)
    (hdescribed : .described c.calls value operation ∈ s.notes) :
    (Gateway.spendFor office token operation iteration c.calls).wp (fun _ ↦ Spent c value)
      (fun _ ↦ Since c) s := by
  rw [Gateway.spendFor, Eff.wp_bind, Eff.wp_read, Eff.wp_bind, onDesk, Eff.wp_zoom]
  refine (wp_consume_turns hs.since.1.keyed.nodup).mono (fun id d hd ↦ ?_) fun _ d hd ↦ ?_
  · obtain ⟨item, hget, -, hsha⟩ := hd.spent
    have hget : s.desk.approvals.get id = some item := hget
    simp only [hget]
    exact hs.consumed (t := { s with desk := d }) hdescribed hd ⟨rfl, rfl, rfl⟩ hsha.symm
  · have hkept : ∀ a, Turns s.desk.approvals a → openGrants a ≤ openGrants s.desk.approvals →
        d.approvals = a → Since c { s with desk := d } := by
      intro a hturns hopen hd
      have hgood := hs.since.1.turn hturns hopen
      refine ⟨?_, hs.since.2.notes, hs.since.2.calls, hs.since.2.inChild⟩
      show Good ⟨d.approvals, _, _, _⟩
      rw [hd]
      exact hgood
    rcases hd with hd | ⟨id, hd⟩
    · exact hkept _ .same le_rfl hd
    · have hopen := hd.openGrants hs.since.1.keyed
      exact hkept _ hd.turns (by omega) rfl

theorem wp_writeAdmitted {c : Core τ} {tool : ToolDefinition H Ref τ}
    (hwrite : tool.capability = .write) {describe : Ref → Prog H Ref τ Operation}
    {office : Office H τ} {name : Str} {snapshot : Json} {token : Str} {iteration : ℤ}
    {call : Option Str} {s : Floor H τ} (hs : Unspent c s) :
    (gateway.writeAdmitted calls tool describe office name snapshot token iteration c.calls call).wp
      (fun _ ↦ Since c) (fun _ ↦ Since c) s := by
  rw [Gateway.writeAdmitted]
  split
  · exact keeps_deny c call _ _ s hs.since
  · exact hs.since
  rw [Eff.wp_bind, Eff.wp_attempt, Eff.wp_bind]
  have hfailed : ∀ (e : Exc) (t : Floor H τ), Since c t →
      (if e.isException then gateway.deny call (gateway.typeName e) e else Eff.raise e :
        FloorM H τ Ref).wp (fun _ ↦ Since c) (fun _ ↦ Since c) t := fun e t ht ↦
    Eff.Keeps.ite (fun _ ↦ keeps_deny c call _ e) (fun _ ↦ .raise e) t ht
  refine (wp_describeCall hcalls hs).mono (fun operation s₁ ⟨h₁, hdescribed⟩ ↦ ?_)
    fun e t h ↦ hfailed e t h.since
  refine (wp_spendFor h₁ hdescribed).mono (fun _ s₂ h₂ ↦ ?_) hfailed
  rw [Eff.wp_bind, Eff.wp_attempt]
  refine ((indifferent_spent c _).keeps_onBudget _ s₂ h₂).mono (fun _ s₃ h₃ ↦ ?_)
    fun e t h ↦ hfailed e t h.since
  rw [Eff.wp_bind, Eff.wp_attempt]
  have hmay : ∀ s' : Floor H τ, s'.core = s₃.core →
      MayEnter c tool (.own (.ofJson snapshot)) (some c.calls) s' := by
    intro s' hs' value hvalue s'' heq
    have hnotes : s'.notes = s₃.notes := congrArg Core.notes hs'
    rw [hs', hnotes] at heq
    exact h₃.mayEnter hwrite value hvalue s'' heq
  refine (wp_carryOut hcalls h₃.since hmay).mono (fun result s₄ h₄ ↦ ?_) fun e s₄ h₄ ↦ ?_
  · exact ((keeps_finish c call _ _).bind fun _ ↦ Eff.Keeps.pure result) s₄ h₄
  · exact Eff.Keeps.ite (fun _ ↦ (keeps_finish c call _ _).bind fun _ ↦ .raise e)
      (fun _ ↦ .raise e) s₄ h₄

theorem wp_writeStarted {c : Core τ} {name : Str} {wellFormed : Bool} {snapshot : Option Json}
    {token : Str} {iteration : ℤ} {call : Option Str} {s : Floor H τ} (hs : Unspent c s) :
    (gateway.writeStarted calls name wellFormed snapshot token iteration c.calls call).wp
      (fun _ ↦ Since c) (fun _ ↦ Since c) s := by
  rw [Gateway.writeStarted, Eff.wp_bind, Eff.wp_read]
  cases hadmitted : gateway.admitCall name wellFormed snapshot s.route with
  | error p => exact keeps_deny _ call p.1 p.2 s hs.since
  | ok p => exact wp_writeAdmitted hcalls (Gateway.capability_of_admitCall hadmitted) hs

theorem keeps_invokeWrite (c : Core τ) (name : Str) (arguments : Ref) (token : Str)
    (iteration : ℤ) :
    Eff.Keeps (Since c) (gateway.invokeWrite calls name arguments token iteration) := by
  refine keeps_since_of (fun s hs ↦ ?_) c
  have hI := indifferent_unspent (H := H) s.core
  rw [Gateway.invokeWrite, Eff.wp_bind]
  refine (wp_begin hs).mono (fun number s₁ ⟨hnumber, h₁⟩ ↦ ?_) fun _ _ h ↦ h.elim
  subst hnumber
  rw [Eff.wp_bind]
  refine (hI.keeps_onBudget _ s₁ h₁).mono (fun _ s₂ h₂ ↦ ?_) fun _ _ h ↦ h.since
  rw [Eff.wp_bind]
  refine (keeps_content arguments s₂ h₂).mono (fun given s₃ h₃ ↦ ?_) fun _ _ h ↦ h.since
  rw [Eff.wp_bind]
  refine (Eff.Keeps.ofExcept _ s₃ h₃).mono (fun snapshot s₄ h₄ ↦ ?_) fun _ _ h ↦ h.since
  have hstart : Eff.Keeps (Unspent s.core) (gateway.startCall (gateway.tool name) name
      (gateway.writeInput arguments given snapshot) 1) :=
    keeps_unspent (fun c ↦ keeps_startCall c _ _ _ 1) s.core
  rw [Eff.wp_bind]
  refine (hstart s₄ h₄).mono (fun call s₅ h₅ ↦ ?_) fun _ _ h ↦ h.since
  exact wp_writeStarted (c := s.core) hcalls h₅

end

/-! ## Every run

From a new gateway, through any program of the host: the invariant, and what it says about writes
and grants. -/

/-- The gateway keeps the invariant, however many frames are left. -/
theorem callsSafe_callsAt : ∀ depth, CallsSafe (gateway.callsAt depth)
  | 0 => ⟨fun _ _ _ ↦ .raise _, fun _ _ _ _ _ ↦ .raise _⟩
  | depth + 1 =>
    ⟨fun c name arguments ↦ keeps_invoke (callsSafe_callsAt depth) c name arguments,
      fun c name arguments token iteration ↦
        keeps_invokeWrite (callsSafe_callsAt depth) c name arguments token iteration⟩

/-- A gateway and an authority of which nothing was asked yet. -/
structure Floor.New (s : Floor H τ) : Prop where
  approvals : s.desk.approvals = []
  notes : s.notes = []

theorem Floor.New.good {s : Floor H τ} (hs : s.New) : Good s.core := by
  have hnone : s.core = ⟨[], s.inChild, [], s.calls⟩ := by
    rw [Floor.core, hs.approvals, hs.notes]
  rw [hnone]
  refine ⟨fun k id h ↦ (by cases h), fun n h ↦ absurd h List.not_mem_nil,
    fun before tool capability value number after h ↦ ?_, fun _ ↦ ⟨fun before after h ↦ ?_, le_rfl⟩⟩
  · exact absurd h (by simp)
  · obtain ⟨rfl, -⟩ := List.append_eq_nil_iff.mp h.symm
    exact le_rfl

/-- No write without an approval of its own, no handler of another tool than one that reads through
`invoke`, and never more writes than grants. -/
structure WriteSafe (notes : List Note) : Prop where
  allowed : EveryEntryAllowed notes
  bounded : NeverMoreWrites notes

/-- **Writes are safe in every run in which no forked process calls `invoke_write`.** The clocks
and `head_of` answer without calling the gateway or the authority again, as an `Office` has them. -/
theorem writeSafe_of_run {β : Type} (p : Prog H Ref τ β) (depth : ℕ) {s : Floor H τ} (hs : s.New)
    (hchild : ¬ ChildWrites (p.run gateway (gateway.callsAt depth) true s).2.notes) :
    WriteSafe (p.run gateway (gateway.callsAt depth) true s).2.notes := by
  have hrun : (p.run gateway (gateway.callsAt depth) true).wp (fun _ ↦ Since s.core)
      (fun _ ↦ Since s.core) s :=
    keeps_run (callsSafe_callsAt depth) s.core true p s (Since.refl hs.good)
  have hend : Good (p.run gateway (gateway.callsAt depth) true s).2.core := by
    rw [Eff.wp] at hrun
    rcases hm : p.run gateway (gateway.callsAt depth) true s with ⟨e | b, t⟩
    · rw [hm] at hrun
      exact hrun.1
    · rw [hm] at hrun
      exact hrun.1
  exact ⟨hend.allowed, (hend.bounded hchild).1⟩

/-! ## Two runs

A run that makes one patch with one grant, and one that makes two: the first of them in a forked
process, where what it spends is forgotten. -/

/-- The objects of the host, one after the other. -/
abbrev Store := List PyVal

/-- A tool that writes: it is described as the sample operation and returns its arguments. -/
def patchTool : ToolDefinition Store ℕ ℕ where
  name := str "apply_patch"
  capability := .write
  handler := fun r ↦ .ret r
  allowedRoutes := [str "*"]
  inputSchema := []
  outputSchema := []
  timeoutSeconds := 5
  sandbox := .inProcess
  idempotent := none
  maxAttempts := 1
  retryOn := fun _ ↦ false
  describe := some fun _ ↦ .ret sampleOperation
  named := by decide
  routed := by decide
  timed := by decide
  tried := le_rfl
  retried := fun h ↦ absurd h (lt_irrefl 1)
  once := fun _ ↦ rfl

/-- A tool that reads, in a forked process, and whose handler calls `invoke_write` there. -/
def probeTool : ToolDefinition Store ℕ ℕ where
  name := str "probe"
  capability := .read
  handler := fun r ↦ .invokeWrite (str "apply_patch") r (str "token") 0 fun _ ↦ .ret r
  allowedRoutes := [str "*"]
  inputSchema := []
  outputSchema := []
  timeoutSeconds := 5
  sandbox := .isolatedProcess
  idempotent := none
  maxAttempts := 1
  retryOn := fun _ ↦ false
  describe := none
  named := by decide
  routed := by decide
  timed := by decide
  tried := le_rfl
  retried := fun h ↦ absurd h (lt_irrefl 1)
  once := fun _ ↦ rfl

/-- A gateway with the two tools, on a machine whose clocks stand still. -/
def sampleGateway : Gateway Store ℕ ℕ where
  tools := [(str "apply_patch", patchTool), (str "probe", probeTool)]
  registered := by
    intro p hp
    rcases List.mem_cons.mp hp with rfl | hp
    · rfl
    · rw [List.mem_singleton.mp hp]
      rfl
  approvals := some (officeAt 1000)
  meter := ⟨return 0, none⟩
  mask := noMasking
  sink := fun _ ↦ return ()
  sharesLog := true
  typeName := fun _ ↦ str "Exception"
  mentionsJson := fun _ ↦ false
  monotonic := return 0
  posix := true
  nesting := 1000
  equal := fun _ _ ↦ false
  view := fun r h ↦ h.getD r .none
  alloc := fun v h ↦ (h.length, h ++ [v])
  view_alloc := fun v h ↦ by simp
  dictCopy := fun r h ↦ (h.length, h ++ [h.getD r .none])
  digest := fun _ ↦ return []
  childEnd := return .answered
  rejoin := fun parent _ ↦ parent

theorem tenSeconds : (0 : ℚ) < 10 := by decide

/-- A gateway and an authority without logs, and one object: an empty dict. -/
def sampleFloor : Floor Store ℕ where
  desk := ⟨[.dict []], none, []⟩
  ownLog := none
  budget := ⟨⟨10, 0, 4, 0, 10000, tenSeconds⟩, 10, 0, 0, 0, 0⟩
  route := none
  inChild := false
  notes := []
  calls := 0

theorem sampleFloor_new : sampleFloor.New := ⟨rfl, rfl⟩

/-- One patch is asked for and granted, and then `next` is done. -/
def afterGrant (next : Prog Store ℕ ℕ Unit) : Prog Store ℕ ℕ Unit :=
  .authority (.request sampleOperation 0) fun _ ↦
    .authority (.grant (approvalId sampleOperation.sha256 0) (str "mattias") 600) fun _ ↦ next

/-- The patch is made: requested, granted, and applied with the token. -/
def onePatch : Prog Store ℕ ℕ Unit :=
  afterGrant (.invokeWrite (str "apply_patch") 0 (str "token") 0 fun _ ↦ .ret ())

/-- The probe is called, and then the patch is made. -/
def probeAndPatch : Prog Store ℕ ℕ Unit :=
  afterGrant (.invoke (str "probe") (some 0) fun _ ↦
    .invokeWrite (str "apply_patch") 0 (str "token") 0 fun _ ↦ .ret ())

/-- The notes of a run of the sample gateway. -/
def sampleNotes (p : Prog Store ℕ ℕ Unit) : List Note :=
  (p.run sampleGateway (sampleGateway.callsAt 5) true sampleFloor).2.notes

theorem onePatch_writeSafe :
    sampleFloor.New ∧ ¬ ChildWrites (sampleNotes onePatch) ∧ WriteSafe (sampleNotes onePatch) ∧
      writes (sampleNotes onePatch) = 1 := by
  obtain ⟨hall, hwrites⟩ : (sampleNotes onePatch).all (fun n ↦
      match n with
      | .called _ inChild => !inChild
      | _ => true) = true ∧ writes (sampleNotes onePatch) = 1 := by decide +kernel
  have hnone : ¬ ChildWrites (sampleNotes onePatch) := by
    rintro ⟨number, hmem⟩
    exact Bool.noConfusion (List.all_eq_true.mp hall _ hmem)
  exact ⟨sampleFloor_new, hnone, writeSafe_of_run onePatch 5 sampleFloor_new hnone, hwrites⟩

/-- The probe spends the approval in its forked process, and the approval is there for the second
write as well: two writes, and one grant. -/
theorem probeAndPatch_unsafe : sampleFloor.New ∧ ¬ WriteSafe (sampleNotes probeAndPatch) := by
  refine ⟨sampleFloor_new, fun h ↦ ?_⟩
  have hle := h.bounded (sampleNotes probeAndPatch) [] (List.append_nil _).symm
  have hcounts : (writes (sampleNotes probeAndPatch), grants (sampleNotes probeAndPatch)) =
      (2, 1) := by decide +kernel
  rw [Prod.mk.injEq] at hcounts
  omega

end AtlasCore
