import Snapd.Boot.BootState20
import Snapd.Lib.Refinement

/-! What the base fields of the modeenv are for: a new base is tried at one boot, and the system
falls back to the last good base unless snapd marks that boot good. `TryBoot` is that protocol
on its own terms, a good base and at most one trial. The modeenv represents a state of it
(`Represents`), and each action of snapd and of the initramfs on the modeenv is the protocol's
move from that state (`baseStep_simulates`), so what the protocol guarantees over its runs holds
of the code's runs. -/

namespace Snapd.Boot

open Refinement

/-- Where the trial of a new base stands: none, a base to mount at the next boot, or a base
mounted once and not yet marked good. -/
inductive Trial (σ : Type)
  | idle
  | armed (x : σ)
  | tried (x : σ)
  deriving DecidableEq, Repr

structure TryBoot (σ : Type) where
  committed : σ
  trial : Trial σ
  deriving DecidableEq, Repr

variable {σ : Type} [DecidableEq σ]

namespace TryBoot

/-- One move of the protocol, with the base a boot mounts. -/
def step : TryBoot σ → BaseAction σ → TryBoot σ × Option σ
  | ⟨c, _⟩, .setNext next bootWithoutTry =>
    if next = c then (⟨c, .idle⟩, none)
    else if bootWithoutTry then (⟨next, .idle⟩, none)
    else (⟨c, .armed next⟩, none)
  | ⟨c, .armed x⟩, .boot => (⟨c, .tried x⟩, some x)
  | ⟨c, _⟩, .boot => (⟨c, .idle⟩, some c)
  | ⟨_, .tried x⟩, .markSuccessful => (⟨x, .idle⟩, none)
  | ⟨c, _⟩, .markSuccessful => (⟨c, .idle⟩, none)

/-- The base the next boot mounts. -/
def nextMount (t : TryBoot σ) : σ :=
  match t.trial with
  | .armed x => x
  | _ => t.committed

theorem step_boot_output (t : TryBoot σ) : (t.step .boot).2 = some t.nextMount := by
  rcases t with ⟨c, _ | x | x⟩ <;> rfl

omit [DecidableEq σ] in
theorem nextMount_cases (t : TryBoot σ) :
    (∃ x, t.trial = .armed x ∧ t.nextMount = x) ∨ t.nextMount = t.committed := by
  rcases t with ⟨c, _ | x | x⟩
  · exact Or.inr rfl
  · exact Or.inl ⟨x, rfl, rfl⟩
  · exact Or.inr rfl

omit [DecidableEq σ] in
theorem nextMount_of_armed {t : TryBoot σ} {x : σ} (h : t.trial = .armed x) : t.nextMount = x := by
  rw [nextMount, h]

theorem step_boot_of_armed {t : TryBoot σ} {x : σ} (h : t.trial = .armed x) :
    (t.step .boot).1 = ⟨t.committed, .tried x⟩ := by
  rcases t with ⟨c, tr⟩
  obtain rfl : tr = .armed x := h
  rfl

theorem armed_of_step {t : TryBoot σ} {a : BaseAction σ} {x : σ}
    (h : (t.step a).1.trial = .armed x) :
    a = .setNext x false ∧ x ≠ t.committed ∧ (t.step a).1.committed = t.committed := by
  rcases t with ⟨c, tr⟩
  cases a with
  | setNext next bootWithoutTry =>
    simp only [step] at h ⊢
    by_cases hc : next = c
    · simp [hc] at h
    · cases bootWithoutTry <;> simp_all
  | boot => cases tr <;> simp [step] at h
  | markSuccessful => cases tr <;> simp [step] at h

theorem tried_of_step {t : TryBoot σ} {a : BaseAction σ} {x : σ}
    (h : (t.step a).1.trial = .tried x) : a = .boot ∧ t.trial = .armed x := by
  rcases t with ⟨c, tr⟩
  cases a with
  | setNext next bootWithoutTry =>
    simp only [step] at h
    split_ifs at h
  | boot => cases tr <;> simp_all [step]
  | markSuccessful => cases tr <;> simp [step] at h

theorem committed_of_step {t : TryBoot σ} {a : BaseAction σ}
    (h : (t.step a).1.committed ≠ t.committed) :
    (∃ next, a = .setNext next true ∧ (t.step a).1.committed = next) ∨
      (a = .markSuccessful ∧ t.trial = .tried (t.step a).1.committed) := by
  rcases t with ⟨c, tr⟩
  cases a with
  | setNext next bootWithoutTry =>
    left
    simp only [step] at h ⊢
    by_cases hc : next = c
    · simp [hc] at h
    · cases bootWithoutTry <;> simp_all
  | boot => cases tr <;> simp [step] at h
  | markSuccessful =>
    right
    cases tr <;> simp_all [step]

/-- Setting the good base again ends any trial: from a state with no armed base, such steps
leave the next boot to mount the good base. -/
theorem nextMount_exec_of_setNext_committed :
    ∀ (mid : List (BaseAction σ)) (t : TryBoot σ), (∀ y, t.trial ≠ .armed y) →
      (∀ a ∈ mid, ∃ wt, a = .setNext t.committed wt) →
      (exec step t mid).nextMount = t.committed := by
  intro mid
  induction mid with
  | nil =>
    intro t hnot _
    rcases nextMount_cases t with ⟨x, hx, -⟩ | hcur
    · exact absurd hx (hnot x)
    · exact hcur
  | cons a mid ih =>
    intro t _ hmid
    obtain ⟨wt, rfl⟩ := hmid a List.mem_cons_self
    have hstep : t.step (.setNext t.committed wt) = (⟨t.committed, .idle⟩, none) := by
      rcases t with ⟨c, tr⟩
      simp [step]
    rw [exec_cons, hstep]
    exact ih _ (fun _ h => by cases h) fun b hb => hmid b (List.mem_cons_of_mem _ hb)

end TryBoot

/-- The modeenv's base fields hold the protocol's state `t`. -/
def Represents (F : SnapFiles σ) (modeenv : Modeenv) (t : TryBoot σ) : Prop :=
  modeenv.base = F.filename t.committed ∧
    match t.trial with
    | .idle => modeenv.baseStatus = .defaultStatus
    | .armed x => modeenv.baseStatus = .tryStatus ∧ modeenv.tryBase = F.filename x
    | .tried x => modeenv.baseStatus = .tryingStatus ∧ modeenv.tryBase = F.filename x

section Represents

variable {F : SnapFiles σ} {fileExists : String → Bool} {modeenv : Modeenv} {t : TryBoot σ}

omit [DecidableEq σ] in
theorem Represents.revisions (h : Represents F modeenv t) :
    revisionsFromModeenv F modeenv = .ok t.committed
      (match t.trial with
        | .idle => none
        | .armed x | .tried x => some x)
      modeenv.baseStatus := by
  obtain ⟨hbase, htrial⟩ := h
  rcases t with ⟨c, _ | x | x⟩
  · rw [htrial]
    exact revisionsFromModeenv_of_default F hbase htrial
  · exact revisionsFromModeenv_of_try F hbase htrial.2 (by simp [htrial.1])
  · exact revisionsFromModeenv_of_try F hbase htrial.2 (by simp [htrial.1])

theorem represents_setNext (h : Represents F modeenv t) (next : σ) (bootWithoutTry : Bool) :
    Represents F (baseStep F fileExists modeenv (.setNext next bootWithoutTry)).1
        (t.step (.setNext next bootWithoutTry)).1 ∧
      (baseStep F fileExists modeenv (.setNext next bootWithoutTry)).2 =
        (t.step (.setNext next bootWithoutTry)).2 := by
  obtain ⟨c, tr⟩ := t
  simp only [baseStep, setNext_of_ok F h.revisions, TryBoot.step]
  by_cases hc : c = next
  · subst hc
    simp [Represents, h.1]
  · have hne : next ≠ c := Ne.symm hc
    cases bootWithoutTry <;> simp [hc, hne, Represents, h.1]

theorem represents_boot (hexists : ∀ f, fileExists f = true)
    (h : Represents F modeenv t) :
    Represents F (baseStep F fileExists modeenv .boot).1 (t.step .boot).1 ∧
      (baseStep F fileExists modeenv .boot).2 = (t.step .boot).2 := by
  obtain ⟨hbase, htrial⟩ := h
  have hrev := Represents.revisions ⟨hbase, htrial⟩
  simp only [baseStep, selectAndCommitSnapInitramfsMount_of_ok F hexists hrev]
  rcases t with ⟨c, _ | x | x⟩
  -- no trial: the good base is mounted and nothing written
  · simp_all [Represents, TryBoot.step]
  -- an armed base is mounted, and the status moves on to "trying"
  · simp_all [Represents, TryBoot.step]
  -- the tried base did not get marked: the good base again, and the status is reset
  · simp_all [Represents, TryBoot.step]

theorem represents_markSuccessful (h : Represents F modeenv t) :
    Represents F (baseStep F fileExists modeenv .markSuccessful).1 (t.step .markSuccessful).1 ∧
      (baseStep F fileExists modeenv .markSuccessful).2 = (t.step .markSuccessful).2 := by
  obtain ⟨hbase, htrial⟩ := h
  have hrev := Represents.revisions ⟨hbase, htrial⟩
  simp only [baseStep, markSuccessful_of_ok F hrev]
  rcases t with ⟨c, _ | x | x⟩ <;> simp_all [Represents, TryBoot.step]

theorem baseStep_simulates (hexists : ∀ f, fileExists f = true) :
    Simulates (baseStep F fileExists) TryBoot.step (Represents F) := by
  intro modeenv t a h
  cases a with
  | setNext next bootWithoutTry => exact represents_setNext h next bootWithoutTry
  | boot => exact represents_boot hexists h
  | markSuccessful => exact represents_markSuccessful h

end Represents

namespace TryBoot

theorem armed_of_exec {t₀ : TryBoot σ} (h₀ : t₀.trial = .idle) {pre : List (BaseAction σ)} {x : σ}
    (h : (exec step t₀ pre).trial = .armed x) :
    ∃ pre₁, pre = pre₁ ++ [.setNext x false] ∧ x ≠ (exec step t₀ pre₁).committed ∧
      (exec step t₀ pre).committed = (exec step t₀ pre₁).committed := by
  rcases List.eq_nil_or_concat pre with rfl | ⟨pre₁, a, rfl⟩
  · rw [exec_nil, h₀] at h
    cases h
  · rw [List.concat_eq_append, exec_concat] at h ⊢
    obtain ⟨rfl, hne, hcomm⟩ := armed_of_step h
    exact ⟨pre₁, rfl, hne, hcomm⟩

theorem tried_of_exec {t₀ : TryBoot σ} (h₀ : t₀.trial = .idle) {pre : List (BaseAction σ)} {x : σ}
    (h : (exec step t₀ pre).trial = .tried x) :
    ∃ pre₁, pre = pre₁ ++ [.boot] ∧ (exec step t₀ pre₁).trial = .armed x := by
  rcases List.eq_nil_or_concat pre with rfl | ⟨pre₁, a, rfl⟩
  · rw [exec_nil, h₀] at h
    cases h
  · rw [List.concat_eq_append] at h ⊢
    rw [exec_concat] at h
    obtain ⟨rfl, harmed⟩ := tried_of_step h
    exact ⟨pre₁, rfl, harmed⟩

end TryBoot

/-- The modeenv after a run of actions. -/
def baseRun (F : SnapFiles σ) (fileExists : String → Bool) (modeenv : Modeenv)
    (actions : List (BaseAction σ)) : Modeenv :=
  exec (baseStep F fileExists) modeenv actions

/-- The base a boot mounts, when it gets to mount one. -/
def bootMount (F : SnapFiles σ) (fileExists : String → Bool) (modeenv : Modeenv) : Option σ :=
  (baseStep F fileExists modeenv .boot).2

section Runs

variable (F : SnapFiles σ) (fileExists : String → Bool) (m₀ : Modeenv)

/-- Every boot mounts a base: the Base of the modeenv, or the try base that the action just
before it set, with a reboot required. -/
def MountsBaseOrNewTry : Prop :=
  ∀ pre, ∃ y, bootMount F fileExists (baseRun F fileExists m₀ pre) = some y ∧
    ((baseRun F fileExists m₀ pre).base = F.filename y ∨
      ∃ pre₁ written, pre = pre₁ ++ [.setNext y false] ∧
        setNext F (baseRun F fileExists m₀ pre₁) y false = .ok (true, written))

/-- A boot that mounts a try base `x` follows the action that set `x`; and if snapd neither
marks that boot good nor sets a base that needs a reboot before the next boot, the next boot
mounts the Base in effect when `x` was set. -/
def FailedTryFallsBack : Prop :=
  ∀ pre x, bootMount F fileExists (baseRun F fileExists m₀ pre) = some x →
    (baseRun F fileExists m₀ pre).base ≠ F.filename x →
    ∃ pre₁, pre = pre₁ ++ [.setNext x false] ∧
      ∀ mid : List (BaseAction σ),
        (∀ a ∈ mid, ∃ next bootWithoutTry, a = .setNext next bootWithoutTry ∧
          F.filename next = (baseRun F fileExists m₀ pre₁).base) →
        ∃ y, bootMount F fileExists (baseRun F fileExists m₀ (pre ++ .boot :: mid)) = some y ∧
          F.filename y = (baseRun F fileExists m₀ pre₁).base

/-- The Base changes only by `setNext` with `BootWithoutTry`, to the snap set, or by
`markSuccessful` right after a boot, to the snap that boot mounted. -/
def BaseChangesOnlyByCommit : Prop :=
  ∀ pre a, (baseRun F fileExists m₀ (pre ++ [a])).base ≠ (baseRun F fileExists m₀ pre).base →
    (∃ next, a = .setNext next true ∧
      (baseRun F fileExists m₀ (pre ++ [a])).base = F.filename next) ∨
    (a = .markSuccessful ∧ ∃ pre₁ y, pre = pre₁ ++ [.boot] ∧
      bootMount F fileExists (baseRun F fileExists m₀ pre₁) = some y ∧
      (baseRun F fileExists m₀ (pre ++ [a])).base = F.filename y)

variable {F fileExists m₀} (hexists : ∀ f, fileExists f = true) {b₀ : σ}
  (hstart : Represents F m₀ ⟨b₀, .idle⟩)
include hexists hstart

theorem represents_baseRun (pre : List (BaseAction σ)) :
    Represents F (baseRun F fileExists m₀ pre) (exec TryBoot.step ⟨b₀, .idle⟩ pre) :=
  (baseStep_simulates hexists).exec_related pre _ _ hstart

theorem bootMount_baseRun (pre : List (BaseAction σ)) :
    bootMount F fileExists (baseRun F fileExists m₀ pre) =
      some (exec TryBoot.step ⟨b₀, .idle⟩ pre).nextMount := by
  rw [bootMount, baseRun, (baseStep_simulates hexists).output_eq hstart,
    TryBoot.step_boot_output]

theorem mountsBaseOrNewTry_of_represents : MountsBaseOrNewTry F fileExists m₀ := by
  intro pre
  have hrep := represents_baseRun hexists hstart pre
  refine ⟨_, bootMount_baseRun hexists hstart pre, ?_⟩
  rcases TryBoot.nextMount_cases (exec TryBoot.step ⟨b₀, .idle⟩ pre) with ⟨x, htr, hx⟩ | hcur
  · right
    rw [hx]
    obtain ⟨pre₁, rfl, hne, -⟩ := TryBoot.armed_of_exec rfl htr
    have hrep₁ := represents_baseRun hexists hstart pre₁
    refine ⟨pre₁, ?_⟩
    rw [setNext_of_ok F hrep₁.revisions, if_neg (Ne.symm hne), if_neg Bool.false_ne_true]
    exact ⟨_, rfl, rfl⟩
  · left
    rw [hrep.1, hcur]

theorem failedTryFallsBack_of_represents : FailedTryFallsBack F fileExists m₀ := by
  intro pre x hmount hne
  have hrep := represents_baseRun hexists hstart pre
  rw [bootMount_baseRun hexists hstart, Option.some.injEq] at hmount
  rcases TryBoot.nextMount_cases (exec TryBoot.step ⟨b₀, .idle⟩ pre) with ⟨y, htr, hy⟩ | hcur
  · rw [hy] at hmount
    subst hmount
    have hboot := TryBoot.step_boot_of_armed htr
    obtain ⟨pre₁, rfl, -, hcomm⟩ := TryBoot.armed_of_exec rfl htr
    have hrep₁ := represents_baseRun hexists hstart pre₁
    refine ⟨pre₁, rfl, fun mid hmid => ⟨_, bootMount_baseRun hexists hstart _, ?_⟩⟩
    have hmid' : ∀ a ∈ mid, ∃ wt, a = .setNext (exec TryBoot.step ⟨b₀, .idle⟩ pre₁).committed wt := by
      intro a ha
      obtain ⟨next, wt, rfl, hnext⟩ := hmid a ha
      rw [hrep₁.1] at hnext
      rw [F.filename_injective hnext]
      exact ⟨wt, rfl⟩
    rw [exec_append TryBoot.step (pre₁ ++ [BaseAction.setNext y false]) (.boot :: mid), exec_cons, hboot, hcomm,
      TryBoot.nextMount_exec_of_setNext_committed mid
        ⟨(exec TryBoot.step ⟨b₀, .idle⟩ pre₁).committed, .tried y⟩ (fun _ h => by cases h) hmid',
      hrep₁.1]
  · exact absurd (by rw [hrep.1, ← hmount, hcur]) hne

theorem baseChangesOnlyByCommit_of_represents : BaseChangesOnlyByCommit F fileExists m₀ := by
  intro pre a hchange
  have hrep := represents_baseRun hexists hstart pre
  have hrep' := represents_baseRun hexists hstart (pre ++ [a])
  rw [hrep.1, hrep'.1, exec_concat] at hchange
  rw [hrep'.1, exec_concat]
  have hc : ((exec TryBoot.step ⟨b₀, .idle⟩ pre).step a).1.committed ≠
      (exec TryBoot.step ⟨b₀, .idle⟩ pre).committed := fun h => hchange (by rw [h])
  rcases TryBoot.committed_of_step hc with ⟨next, rfl, hnext⟩ | ⟨rfl, htried⟩
  · exact Or.inl ⟨next, rfl, by rw [hnext]⟩
  · right
    obtain ⟨pre₁, rfl, harmed⟩ := TryBoot.tried_of_exec rfl htried
    refine ⟨rfl, pre₁, _, rfl, bootMount_baseRun hexists hstart pre₁, ?_⟩
    rw [TryBoot.nextMount_of_armed harmed]

end Runs

/-- The base try-boot protocol is fail-safe. From a modeenv whose Base is a snap and whose
status is the default one, with every snap file in place, over any interleaving of `setNext`,
boots and `markSuccessful`: every boot mounts the Base or a try base just set; a try base mounted
once is not mounted by the next boot unless snapd sets a base again; and the Base changes only by
a revert without a try or by marking good the base the boot before mounted. -/
theorem try_base_fail_safe (F : SnapFiles σ) (fileExists : String → Bool)
    (hexists : ∀ f, fileExists f = true) (m₀ : Modeenv) (b₀ : σ)
    (hbase : m₀.base = F.filename b₀) (hstatus : m₀.baseStatus = .defaultStatus) :
    MountsBaseOrNewTry F fileExists m₀ ∧ FailedTryFallsBack F fileExists m₀ ∧
      BaseChangesOnlyByCommit F fileExists m₀ := by
  have hstart : Represents F m₀ ⟨b₀, .idle⟩ := ⟨hbase, hstatus⟩
  exact ⟨mountsBaseOrNewTry_of_represents hexists hstart,
    failedTryFallsBack_of_represents hexists hstart,
    baseChangesOnlyByCommit_of_represents hexists hstart⟩

/-- Three revisions of the core20 base, named as their snap files are. -/
def core20Files : SnapFiles (Fin 3) where
  filename n := "core20_" ++ toString (n.val + 1) ++ ".snap"
  parse s :=
    if s = "core20_1.snap" then .ok 0
    else if s = "core20_2.snap" then .ok 1
    else if s = "core20_3.snap" then .ok 2
    else .error "cannot parse revision in snap file name"
  parse_filename n := match n with | 0 | 1 | 2 => rfl
  filename_ne_empty := by decide

/-- A modeenv that boots the first revision. -/
def core20Modeenv : Modeenv := ⟨"core20_1.snap", "", .defaultStatus⟩

theorem try_base_fail_safe_on_core20 :
    MountsBaseOrNewTry core20Files (fun _ => true) core20Modeenv ∧
      FailedTryFallsBack core20Files (fun _ => true) core20Modeenv ∧
      BaseChangesOnlyByCommit core20Files (fun _ => true) core20Modeenv :=
  try_base_fail_safe core20Files (fun _ => true) (fun _ => rfl) core20Modeenv 0 (by decide) rfl

/-- Snapd may set another base to try between the boot of a try base and the next boot, with no
`markSuccessful`: that next boot mounts the new try base, not the Base in effect when the first
was set, which is still the Base. -/
theorem next_boot_mounts_newer_try_base :
    bootMount core20Files (fun _ => true)
        (baseRun core20Files (fun _ => true) core20Modeenv [.setNext 1 false]) = some 1 ∧
      bootMount core20Files (fun _ => true)
        (baseRun core20Files (fun _ => true) core20Modeenv [.setNext 1 false, .boot, .setNext 2 false])
        = some 2 ∧
      (baseRun core20Files (fun _ => true) core20Modeenv
        [.setNext 1 false, .boot, .setNext 2 false]).base = core20Files.filename 0 := by
  decide

end Snapd.Boot
