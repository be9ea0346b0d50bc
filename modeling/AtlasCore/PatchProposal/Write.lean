import AtlasCore.PatchProposal.Branch

/-!
# The write, through the gateway

`invoke_write` describes, spends an approval and reserves before it enters the handler, and checks
and charges after.  All of that asks the machine for things that are no deeds, so what is known of
the yard when the call begins is known when the handler is entered (`wp_invokeWrite`), and the
handler is handed the arguments of the proposal as they were approved.
-/

set_option autoImplicit false

namespace AtlasCore

open Py

variable {W τ : Type} {shop : Workshop W τ}

/-! ## What does not matter to the world

Properties of a proposal that only its own deeds can change, through every part of the gateway. -/

/-- What the world does does not matter: only what the proposal itself does can change it. -/
def Steady (J : Yard W → Prop) : Prop := ∀ y w, J y → J { y with world := w }

theorem steady_kept {ws known : List Deed} : Steady (Kept shop ws known) := fun _ w h ↦ h.world w

section
variable {J : Yard W → Prop} (hJ : Steady J)
include hJ

theorem Steady.outdoors {α : Type} (m : Eff Exc W α) : Eff.Keeps J (AtlasCore.outdoors m) := by
  refine Eff.Keeps.zoom ?_ m
  exact fun w y h ↦ hJ y w h

omit hJ in
theorem keeps_ofWorld {α : Type} {m : Eff Exc (Yard W) α} (hm : Eff.Keeps J m) :
    Eff.Keeps (fun p : Yard W × RunBudget ↦ J p.1) (ofWorld m) := fun p hp ↦
  Eff.wp_zoom.mpr (hm p.1 hp)

/-! ### The budget

A budget reads a clock, which is the world's. -/

theorem Steady.check :
    Eff.Keeps (fun p : Yard W × RunBudget ↦ J p.1) (RunBudget.check shop.gateway.meter) := by
  refine (keeps_ofWorld (Eff.Keeps.pure _)).bind fun _ ↦ Eff.Keeps.ite (fun _ ↦ Eff.Keeps.raise _)
    fun _ ↦ (keeps_ofWorld (hJ.outdoors _)).bind fun now ↦ Eff.Keeps.read_bind fun p hp ↦ ?_
  exact Eff.wp_ite.mpr ⟨fun _ ↦ hp, fun _ ↦ hp⟩

theorem Steady.reserveTool :
    Eff.Keeps (fun p : Yard W × RunBudget ↦ J p.1) (RunBudget.reserveTool shop.gateway.meter) := by
  refine (hJ.check).bind fun _ ↦ Eff.Keeps.read_bind fun p hp ↦ ?_
  exact Eff.wp_ite.mpr ⟨fun _ ↦ hp, fun _ ↦ hp⟩

theorem Steady.chargeOutput (output : Str) :
    Eff.Keeps (fun p : Yard W × RunBudget ↦ J p.1)
      (RunBudget.chargeOutput shop.gateway.meter output) := by
  refine (hJ.check).bind fun _ ↦ ?_
  rcases encode output with _ | bytes
  · exact Eff.Keeps.raise _
  · refine Eff.Keeps.bind (Eff.Keeps.update fun _ hp ↦ hp) fun _ ↦ Eff.Keeps.read_bind fun p hp ↦ ?_
    exact Eff.wp_ite.mpr ⟨fun _ ↦ hp, fun _ ↦ hp⟩

omit hJ in
theorem keeps_onBudget {α : Type} {m : Eff Exc (Yard W × RunBudget) α}
    (hm : Eff.Keeps (fun p ↦ J p.1) m) :
    Eff.Keeps (fun s : Floor (Yard W) τ ↦ J s.desk.world) (onBudget m) := fun s hs ↦
  Eff.wp_zoom.mpr (hm (s.desk.world, s.budget) hs)

/-! ### The log

The log is written by the sink, which is the world's. -/

theorem Steady.append {kind : EventKind} {iteration : ℕ} {callId : Option Str} {payload : Fields} :
    Eff.Keeps (fun p : Yard W × EventLog ↦ J p.1)
      (EventLog.append shop.office.mask (fun e ↦ AtlasCore.outdoors (shop.office.sink e)) kind
        iteration callId payload) := by
  refine Eff.Keeps.read_bind fun p hp ↦ ?_
  rw [Eff.wp_bind, Eff.wp_ofExcept]
  split
  · rw [Eff.wp_bind, Eff.wp_update, Eff.wp_zoom]
    exact hJ.outdoors _ p.1 hp
  · exact hp

omit hJ in
theorem kept_onLog {α : Type} {log : EventLog} {m : Eff Exc (Yard W × EventLog) α}
    (hm : Eff.Keeps (fun p ↦ J p.1) m) :
    Eff.Keeps (fun s : Floor (Yard W) τ ↦ J s.desk.world) (shop.gateway.onLog log m) := fun s hs ↦
  Eff.wp_zoom.mpr (hm (s.desk.world, log) hs)

theorem Steady.startCall {tool : Option (ToolDefinition (Yard W) PyVal τ)} {name : Str}
    {callInput : Eff Exc (Yard W) (Option Str)} {attempt : ℕ} (hinput : Eff.Keeps J callInput) :
    Eff.Keeps (fun s : Floor (Yard W) τ ↦ J s.desk.world)
      (shop.gateway.startCall tool name callInput attempt) := by
  refine Eff.Keeps.read_bind fun s hs ↦ ?_
  split
  · exact hs
  · refine ((kept_onLog ?_).bind fun _ ↦ Eff.Keeps.pure _) s hs
    refine Eff.Keeps.read_bind fun p hp ↦ ?_
    rw [Eff.wp_bind, Eff.wp_zoom]
    refine (hinput p.1 hp).mono (fun _ y hy ↦ ?_) fun _ _ hy ↦ hy
    exact ((hJ.append).bind fun _ ↦ Eff.Keeps.pure _) _ hy

theorem Steady.finish {call : Option Str} {outcome : CallOutcome} {error : Option Str} :
    Eff.Keeps (fun s : Floor (Yard W) τ ↦ J s.desk.world)
      (shop.gateway.finish call outcome error) := by
  refine Eff.Keeps.read_bind fun s hs ↦ ?_
  split
  · refine kept_onLog ?_ s hs
    refine Eff.Keeps.read_bind fun p hp ↦ ?_
    exact Eff.wp_ite.mpr
      ⟨fun _ ↦ hp, fun _ ↦ Eff.wp_ite.mpr ⟨fun _ ↦ hp, fun _ ↦ hJ.append p hp⟩⟩
  · exact hs

theorem Steady.wp_deny {α : Type} {call : Option Str} {reason : Str} {e : Exc}
    {Q : α → Floor (Yard W) τ → Prop} {s : Floor (Yard W) τ} (hs : J s.desk.world) :
    (shop.gateway.deny call reason e).wp Q (fun _ t ↦ J t.desk.world) s :=
  Eff.wp_bind.mpr ((hJ.finish s hs).mono (fun _ _ h ↦ h) fun _ _ h ↦ h)

omit hJ in
theorem keeps_begin :
    Eff.Keeps (fun s : Floor (Yard W) τ ↦ J s.desk.world) Gateway.begin := fun _ hs ↦ hs

omit hJ in
theorem keeps_takeNote (n : Note) :
    Eff.Keeps (fun s : Floor (Yard W) τ ↦ J s.desk.world) (takeNote n) :=
  Eff.Keeps.update fun _ hs ↦ hs

/-! ### The authority

The authority reads clocks and writes to its log, and neither is a deed. -/

theorem Steady.record {decision id : Str} {item : Pending τ} {extra : Fields} :
    Eff.Keeps (fun d : Desk (Yard W) τ ↦ J d.world)
      (Authority.record shop.authority decision id item extra) := by
  refine Eff.Keeps.read_bind fun d hd ↦ ?_
  split
  · exact hd
  · refine Eff.wp_ite.mpr ⟨fun _ ↦ hd, fun _ ↦ Eff.wp_zoom.mpr ?_⟩
    exact hJ.append _ hd

theorem Steady.asks {α : Type} (m : Eff Exc W α) :
    Eff.Keeps (fun d : Desk (Yard W) τ ↦ J d.world) (AtlasCore.asks (AtlasCore.outdoors m)) :=
  fun d hd ↦ Eff.wp_zoom.mpr (hJ.outdoors m d.world hd)

omit hJ in
theorem keeps_assign (id : Str) (f : Pending τ → Pending τ) :
    Eff.Keeps (fun d : Desk (Yard W) τ ↦ J d.world) (assign id f) := Eff.Keeps.update fun _ hd ↦ hd

theorem Steady.reject {α : Type} {id : Str} {item : Pending τ} {reason : Str} {extra : Fields} :
    Eff.Keeps (fun d : Desk (Yard W) τ ↦ J d.world)
      (Authority.reject shop.authority id item reason extra : DeskM (Yard W) τ α) :=
  hJ.record.bind fun _ ↦ Eff.Keeps.raise _

omit hJ in
theorem keeps_openItem (id : Str) :
    Eff.Keeps (fun d : Desk (Yard W) τ ↦ J d.world) (Authority.openItem id) := by
  refine Eff.Keeps.read_bind fun d hd ↦ ?_
  split
  · exact hd
  · exact Eff.wp_ite.mpr ⟨fun _ ↦ hd, fun _ ↦ hd⟩

omit hJ in
theorem keeps_tokenDigest (token : Str) :
    Eff.Keeps (fun d : Desk (Yard W) τ ↦ J d.world) (Authority.tokenDigest token) := by
  rw [Authority.tokenDigest]
  rcases sha256Text token with _ | digest
  · exact Eff.Keeps.raise _
  · exact Eff.Keeps.pure _

theorem Steady.request {op : Operation} {iteration : ℤ} :
    Eff.Keeps (fun d : Desk (Yard W) τ ↦ J d.world)
      (Authority.request shop.authority op iteration) := by
  refine Eff.Keeps.read_bind fun d hd ↦ Eff.wp_bind.mpr (Eff.wp_update.mpr ?_)
  exact (hJ.record.bind fun _ ↦ Eff.Keeps.pure _) _ hd

theorem Steady.grant {id grantedBy : Str} {ttl : τ} :
    Eff.Keeps (fun d : Desk (Yard W) τ ↦ J d.world)
      (Authority.grant shop.authority id grantedBy ttl) := by
  refine Eff.Keeps.ite (fun _ ↦ Eff.Keeps.raise _) fun _ ↦
    Eff.Keeps.ite (fun _ ↦ Eff.Keeps.raise _) fun _ ↦ ?_
  refine (keeps_openItem id).bind fun item ↦ (hJ.asks _).bind fun token ↦ ?_
  refine (keeps_tokenDigest token).bind fun digest ↦ (keeps_assign _ _).bind fun _ ↦ ?_
  refine (hJ.asks _).bind fun grantedAt ↦ (keeps_assign _ _).bind fun _ ↦ ?_
  refine (hJ.asks _).bind fun now ↦ (keeps_assign _ _).bind fun _ ↦ ?_
  refine (Eff.Keeps.ofExcept _).bind fun expiresAt ↦ ?_
  exact (Eff.Keeps.read_bind fun _ hd ↦ hd).bind fun _ ↦ hJ.record.bind fun _ ↦ Eff.Keeps.pure _

theorem Steady.refuse {id refusedBy : Str} :
    Eff.Keeps (fun d : Desk (Yard W) τ ↦ J d.world)
      (Authority.refuse shop.authority id refusedBy) := by
  refine (keeps_openItem id).bind fun item ↦ (keeps_assign _ _).bind fun _ ↦ ?_
  exact (hJ.asks _).bind fun grantedAt ↦ (keeps_assign _ _).bind fun _ ↦
    (Eff.Keeps.read_bind fun _ hd ↦ hd).bind fun _ ↦ hJ.record

theorem Steady.spend {id : Str} {item : Pending τ} {op : Operation} :
    Eff.Keeps (fun d : Desk (Yard W) τ ↦ J d.world)
      (Authority.spend shop.authority id item op) := by
  refine (hJ.asks _).attempt.bind fun head ↦ ?_
  split
  · exact hJ.reject
  · exact Eff.Keeps.raise _
  · refine Eff.Keeps.ite (fun _ ↦ hJ.reject) fun _ ↦ Eff.Keeps.ite (fun _ ↦ hJ.reject) fun _ ↦ ?_
    exact (keeps_assign _ _).bind fun _ ↦ hJ.record.bind fun _ ↦ Eff.Keeps.pure _

theorem Steady.consume {token : Str} {op : Operation} {iteration : ℤ} :
    Eff.Keeps (fun d : Desk (Yard W) τ ↦ J d.world)
      (Authority.consume shop.authority token op iteration) := by
  refine (keeps_tokenDigest token).bind fun digest ↦ Eff.Keeps.read_bind fun d hd ↦ ?_
  split
  · exact hJ.reject d hd
  · refine Eff.wp_ite.mpr ⟨fun _ ↦ hJ.reject d hd, fun _ ↦ ?_⟩
    split
    · refine ((Eff.Keeps.bind ?_ fun expired ↦
        Eff.Keeps.ite (fun _ ↦ hJ.reject) fun _ ↦ hJ.spend) : Eff.Keeps _ _) d hd
      exact (hJ.asks _).bind fun _ ↦ Eff.Keeps.ite (fun _ ↦ Eff.Keeps.pure _) fun _ ↦
        (hJ.asks _).bind fun _ ↦ Eff.Keeps.pure _
    · exact hJ.reject d hd

end

/-! ## The arguments

What the handler is given is what was approved: the copies that are made on the way say the same. -/

theorem joinSurrogates_eq {s : Str} (h : encodable s = true) : PyVal.joinSurrogates s = s := by
  induction s using PyVal.joinSurrogates.induct with
  | case1 high low rest hpair ih =>
    have hhigh := List.all_eq_true.mp h high List.mem_cons_self
    simp only [isSurrogate, Bool.not_eq_true', Bool.and_eq_false_iff,
      decide_eq_false_iff_not] at hhigh
    omega
  | case2 high low rest hpair ih =>
    have hrest : encodable (low :: rest) = true := List.all_eq_true.mpr fun c hc ↦
      List.all_eq_true.mp h c (List.mem_cons_of_mem _ hc)
    rw [PyVal.joinSurrogates, if_neg hpair, ih hrest]
  | case3 s hs => rw [PyVal.joinSurrogates.eq_2 s hs]

/-- The values of arguments with a digest can be encoded. -/
theorem WriteArgs.encodable_of_operation {a : WriteArgs} {op : Operation}
    (h : a.operation = .ok op) : Json.surrogateFree (.obj a.fields) = true := by
  rw [WriteArgs.operation, Operation.build] at h
  split_ifs at h with hnamed hpinned
  split at h
  · rename_i sha256 hsealed
    obtain ⟨text, htext, hencode⟩ := Option.bind_eq_some_iff.mp hsealed
    obtain ⟨bytes, hbytes, -⟩ := Option.map_eq_some_iff.mp hencode
    rw [Json.dumpsStrict] at htext
    split_ifs at htext
    rw [Json.dumps] at htext
    split_ifs at htext
    obtain rfl := Option.some.inj htext
    rw [encode] at hbytes
    split_ifs at hbytes with hfree
    rw [Json.encodable_render, Json.surrogateFree, Json.every_canon] at hfree
    simp only [operationDocument, Json.every, Json.everyField, Bool.and_eq_true] at hfree
    rw [Json.surrogateFree, Json.every]
    exact hfree.2.2.1.2
  · cases h

/-- The copy the gateway takes of the arguments is the arguments. -/
theorem takeSnapshot_arguments (shop : Workshop W τ) {a : WriteArgs} {op : Operation}
    (h : a.operation = .ok op) :
    (∃ e, shop.gateway.takeSnapshot (.ofJson (.obj a.fields)) = .error e) ∨
      shop.gateway.takeSnapshot (.ofJson (.obj a.fields)) = .ok (some (.obj a.fields)) := by
  have hfree := WriteArgs.encodable_of_operation h
  have hkeyed : (PyVal.ofJson (.obj a.fields)).isStringKeyed = true := rfl
  rw [Gateway.takeSnapshot, hkeyed, if_pos rfl]
  rcases hn : shop.gateway.nesting with _ | n
  · exact .inl ⟨.recursionError, rfl⟩
  · refine .inr ?_
    have hcopy : (PyVal.ofJson (.obj a.fields)).jsonCopy (n + 1) =
        .ok (PyVal.readBack (.obj a.fields)) := rfl
    have hback : PyVal.readBack (.obj a.fields) = .obj a.fields := by
      simp only [Json.surrogateFree, WriteArgs.fields, Json.every, Json.everyField,
        Bool.and_eq_true] at hfree
      obtain ⟨⟨h1, h2⟩, ⟨h3, h4⟩, ⟨h5, h6⟩, ⟨h7, h8⟩, ⟨h9, h10⟩, ⟨h11, h12⟩, ⟨h13, h14⟩, -⟩ := hfree
      have hfields : PyVal.readBackFields a.fields = a.fields := by
        simp only [WriteArgs.fields, PyVal.readBackFields, PyVal.readBack, joinSurrogates_eq, h1,
          h2,
          h3, h4, h5, h6, h7, h8, h9, h10, h11, h12, h13, h14]
      have hwf := a.fields_wf
      rw [Json.WF] at hwf
      rw [PyVal.readBack, hfields, Json.dictOf_eq hwf.1]
    rw [hcopy, hback]

theorem read_arguments (a : WriteArgs) : WriteArgs.read (.ofJson (.obj a.fields)) = .ok a := by
  rfl

/-! ## Into the handler, and out again

From the call to the handler and back, with what is known at each of the two. -/

section
variable {J R E : Yard W → Prop} (hJ : Steady J) (hR : Steady R) (hE : Steady E)
  (hJE : ∀ y, J y → E y) (hRE : ∀ y, R y → E y) {a : WriteArgs}
  (hdescribe : ∀ v, Eff.Keeps J (shop.describeCreateBranch v))
  (hhandler : ∀ y, J y →
    (shop.createBranch (.ofJson (.obj a.fields))).wp (fun _ ↦ R) (fun _ ↦ E) y)
  {calls : Calls (Yard W) PyVal τ}

theorem wp_onHost {α : Type} {m : Eff Exc (Yard W) α} {s : Floor (Yard W) τ}
    {Q : α → Yard W → Prop} {E : Exc → Yard W → Prop} (h : m.wp Q E s.desk.world) :
    (onHost m).wp (fun b t ↦ Q b t.desk.world) (fun e t ↦ E e t.desk.world) s := Eff.wp_zoom.mpr h

include hJ hdescribe in
theorem keeps_approve {name token : Str} {iteration : ℤ} {snapshot : Json} {number : ℕ} :
    Eff.Keeps (fun s : Floor (Yard W) τ ↦ J s.desk.world) (do
      let operation ← shop.gateway.describeCall calls name
        (fun r ↦ .ofEff (shop.describeCreateBranch r)) snapshot number
      Gateway.spendFor shop.authority token operation iteration number) := by
  refine Eff.Keeps.bind ?_ fun operation ↦ Eff.Keeps.read_bind fun s hs ↦ ?_
  · refine Eff.Keeps.bind (Eff.Keeps.read_bind fun s hs ↦ hs) fun arguments ↦ ?_
    refine (Eff.Keeps.read_bind fun s hs ↦ hs).bind fun value ↦ Eff.Keeps.bind (fun s hs ↦ ?_)
      fun operation ↦ (keeps_takeNote _).bind fun _ ↦
        Eff.Keeps.ite (fun _ ↦ Eff.Keeps.raise _) fun _ ↦ Eff.Keeps.pure _
    rw [Prog.run_ofEff]
    exact wp_onHost (hdescribe _ _ hs)
  · rw [Eff.wp_bind]
    refine (show Eff.Keeps (fun s : Floor (Yard W) τ ↦ J s.desk.world) (onDesk _) from
      fun s hs ↦ Eff.wp_zoom.mpr (hJ.consume s.desk hs)) s hs |>.mono (fun id s hs ↦ ?_)
      fun _ _ h ↦ h
    split
    · exact keeps_takeNote _ s hs
    · exact hs

include hJ hR hJE hRE hhandler in
/-- The handler, and the checks of what it returns. -/
theorem wp_carryOutKept {number : ℕ} {s : Floor (Yard W) τ} (hs : J s.desk.world) :
    (shop.gateway.carryOut calls shop.CREATE_BRANCH (.own (.ofJson (.obj a.fields)))
      (some number)).wp (fun _ t ↦ R t.desk.world) (fun _ t ↦ E t.desk.world) s := by
  have hraise : ∀ {α : Type} {m : FloorM (Yard W) τ α},
      Eff.Keeps (fun s : Floor (Yard W) τ ↦ R s.desk.world) m → ∀ t : Floor (Yard W) τ,
        R t.desk.world → m.wp (fun _ t ↦ R t.desk.world) (fun _ t ↦ E t.desk.world) t :=
    fun hm t ht ↦ (hm t ht).mono (fun _ _ h ↦ h) fun _ _ h ↦ hRE _ h
  have hexecute : (shop.gateway.execute calls shop.CREATE_BRANCH (.own (.ofJson (.obj a.fields)))
      (some number)).wp (fun _ t ↦ R t.desk.world) (fun _ t ↦ E t.desk.world) s := by
    rw [Gateway.execute, if_neg Sandbox.noConfusion, Eff.wp_bind]
    refine (wp_onHost (hJ.outdoors _ _ hs)).mono (fun started s hs ↦ ?_) fun _ _ h ↦ hJE _ h
    rw [Eff.wp_bind]
    have henter : (shop.gateway.enter shop.CREATE_BRANCH true (.own (.ofJson (.obj a.fields)))
        (some number)).wp (fun r t ↦ r = .ofJson (.obj a.fields) ∧ J t.desk.world)
          (fun _ t ↦ E t.desk.world) s := ⟨rfl, hs⟩
    refine henter.mono (fun r s hr ↦ ?_) fun _ _ h ↦ h
    obtain ⟨rfl, hs⟩ := hr
    rw [Eff.wp_bind]
    have hrun :
        ((shop.CREATE_BRANCH).handler (.ofJson (.obj a.fields))).run shop.gateway calls true =
        onHost (shop.createBranch (.ofJson (.obj a.fields))) := Prog.run_ofEff _ _ _ _
    rw [hrun]
    refine (wp_onHost (hhandler _ hs)).mono (fun result s hs ↦ ?_) fun _ _ h ↦ h
    rw [Eff.wp_bind]
    refine (wp_onHost (hR.outdoors _ _ hs)).mono (fun finished s hs ↦ ?_) fun _ _ h ↦ hRE _ h
    exact Eff.wp_ite.mpr ⟨fun _ ↦ hRE _ hs, fun _ ↦ hs⟩
  rw [Gateway.carryOut, Eff.wp_bind]
  refine hexecute.mono (fun result s hs ↦ ?_) fun _ _ h ↦ h
  refine hraise ((keeps_onBudget hR.check).bind fun _ ↦
    (Eff.Keeps.read_bind fun _ hs ↦ hs).bind fun v ↦ (Eff.Keeps.ofExcept _).bind fun serialized ↦
    (Eff.Keeps.ofExcept _).bind fun _ ↦ (keeps_onBudget (hR.chargeOutput _)).bind fun _ ↦
    Eff.Keeps.pure _) s hs

include hJ hR hE hJE hRE hdescribe hhandler in
/-- What of the call comes after it was logged. -/
theorem wp_writeStarted_arguments {token : Str} {iteration : ℤ} {number : ℕ} {call : Option Str}
    {s : Floor (Yard W) τ} (hs : J s.desk.world) :
    (shop.gateway.writeStarted calls (str "create_branch") true (some (.obj a.fields)) token
      iteration number call).wp (fun _ t ↦ R t.desk.world) (fun _ t ↦ E t.desk.world) s := by
  have hadmit : shop.gateway.admitCall (str "create_branch") true (some (.obj a.fields)) s.route =
      .ok (shop.CREATE_BRANCH, fun r ↦ .ofEff (shop.describeCreateBranch r), shop.authority,
        .obj a.fields) := rfl
  have hdeny : ∀ {reason : Str} {e : Exc} {t : Floor (Yard W) τ}, J t.desk.world →
      (shop.gateway.deny call reason e : FloorM (Yard W) τ PyVal).wp
        (fun _ t ↦ R t.desk.world) (fun _ t ↦ E t.desk.world) t :=
    fun ht ↦ (hJ.wp_deny ht).mono (fun _ _ h ↦ h) fun _ _ h ↦ hJE _ h
  rw [Gateway.writeStarted, Eff.wp_bind, Eff.wp_read, hadmit]
  dsimp only
  rw [Gateway.writeAdmitted]
  split
  · exact hdeny hs
  · exact hJE _ hs
  · rw [Eff.wp_bind, Eff.wp_attempt]
    refine (keeps_approve hJ hdescribe s hs).mono (fun _ s hs ↦ ?_) fun e s hs ↦ ?_
    · rw [Eff.wp_bind, Eff.wp_attempt]
      refine (keeps_onBudget hJ.reserveTool s hs).mono (fun _ s hs ↦ ?_) fun e s hs ↦ ?_
      · rw [Eff.wp_bind, Eff.wp_attempt]
        refine (wp_carryOutKept hJ hR hJE hRE hhandler hs).mono
          (fun result s hs ↦ ?_) fun e s hs ↦ ?_
        · exact (hR.finish.bind (fun _ ↦ Eff.Keeps.pure _) s hs).mono (fun _ _ h ↦ h)
            fun _ _ h ↦ hRE _ h
        · refine Eff.wp_ite.mpr ⟨fun _ ↦ ?_, fun _ ↦ hs⟩
          exact Eff.wp_bind.mpr ((hE.finish s hs).mono (fun _ _ h ↦ h) fun _ _ h ↦ h)
      · exact Eff.wp_ite.mpr ⟨fun _ ↦ hdeny hs, fun _ ↦ hJE _ hs⟩
    · exact Eff.wp_ite.mpr ⟨fun _ ↦ hdeny hs, fun _ ↦ hJE _ hs⟩

include hJ hR hE hJE hRE hdescribe hhandler in
/-- **What is known when the call begins is known when the handler is entered**, with the arguments
that were approved; after it only what the machine does may follow. -/
theorem wp_invokeWrite {op : Operation} (hop : a.operation = .ok op) {token : Str} {iteration : ℤ}
    {s : Floor (Yard W) τ} (hs : J s.desk.world) :
    (shop.gateway.invokeWrite calls (str "create_branch") (.ofJson (.obj a.fields)) token
      iteration).wp (fun _ t ↦ R t.desk.world) (fun _ t ↦ E t.desk.world) s := by
  have hstep : ∀ {α : Type} {m : FloorM (Yard W) τ α} {Q : α → Floor (Yard W) τ → Prop},
      Eff.Keeps (fun s : Floor (Yard W) τ ↦ J s.desk.world) m → ∀ t : Floor (Yard W) τ,
        J t.desk.world → (∀ b t, J t.desk.world → Q b t) →
          m.wp Q (fun _ t ↦ E t.desk.world) t :=
    fun hm t ht hQ ↦ (hm t ht).mono (fun _ _ h ↦ hQ _ _ h) fun _ _ h ↦ hJE _ h
  rw [Gateway.invokeWrite, Eff.wp_bind]
  refine hstep keeps_begin s hs fun number s hs ↦ ?_
  rw [Eff.wp_bind]
  refine hstep (keeps_onBudget hJ.check) s hs fun _ s hs ↦ ?_
  rw [Eff.wp_bind]
  show (Eff.ofExcept (shop.gateway.takeSnapshot (.ofJson (.obj a.fields))) >>= _).wp _ _ s
  rw [Eff.wp_bind, Eff.wp_ofExcept]
  rcases takeSnapshot_arguments shop hop with ⟨e, hsnapshot⟩ | hsnapshot
  · rw [hsnapshot]
    exact hJE _ hs
  rw [hsnapshot]
  dsimp only
  rw [Eff.wp_bind]
  have hinput : Eff.Keeps J (shop.gateway.writeInput (.ofJson (.obj a.fields))
      (.ofJson (.obj a.fields)) (some (.obj a.fields))) := by
    rw [Gateway.writeInput, map_eq_pure_bind]
    refine Eff.Keeps.bind ?_ fun _ ↦ Eff.Keeps.pure _
    rw [Gateway.jsonDigest]
    split
    · exact Eff.Keeps.pure _
    · exact Eff.Keeps.raise _
  refine hstep (hJ.startCall hinput) s hs fun call s hs ↦ ?_
  exact wp_writeStarted_arguments hJ hR hE hJE hRE hdescribe hhandler hs

end

end AtlasCore
