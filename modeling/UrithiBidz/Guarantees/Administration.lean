import UrithiBidz.Contract.Queries
import UrithiBidz.Guarantees.Isolation
import UrithiBidz.Guarantees.Noninterference

/-!
# Who runs the platform

The contract is set up once, by whoever comes first: nothing else returns before that, and
setting it up again does not. The address that was given then is the admin for good, for no entry
point hands the office on, and the admin's calls are the only ones that change the settings. So
the settings in force at any moment are what the past calls add up to, one after the other
(`UrithiBidz.Call.configure`), and a creation is held to those of its own moment.

`UrithiBidz.Administered` puts this together for a run, `UrithiBidz.Run.administered` proves it.
-/

namespace UrithiBidz

variable {Address : Type}

/-- The call sets the platform up. -/
def Call.isSetup : Call Address → Bool
  | .initializeContract .. => true
  | _ => false

/-- **What a call makes of the settings**, once it has returned. -/
def Call.configure (config : Option (PlatformConfig Address)) :
    Call Address → Option (PlatformConfig Address)
  | .initializeContract admin fee maxRoyalty _ => some ⟨admin, fee, maxRoyalty, false⟩
  | .updateConfig _ fee maxRoyalty paused =>
    config.map fun c => updatedConfig c fee maxRoyalty paused
  | _ => config

/-- The settings that calls add up to. -/
def settings (tr : List (Invocation Address)) : Option (PlatformConfig Address) :=
  (tr.flatMap fun i => [i.call]).foldl Call.configure none

/-- The call sets the switch. -/
def Call.Switches (paused : Bool) : Call Address → Prop
  | .updateConfig _ _ _ p => p = some paused
  | _ => False

variable [DecidableEq Address] {env : Env Address} {s : Storage Address} {c : Call Address}
  {o : Outcome Address}

/-- **Before the platform is set up, nothing else returns.** -/
theorem isSetup_of_unconfigured (hs : s.Fresh) (hnone : s.config = none)
    (h : invoke env s c = .ok o) : c.isSetup = true := by
  rcases htarget : c.target s with _ | id
  · cases c with
    | initializeContract => rfl
    | updateConfig =>
      obtain ⟨config, hconfig, -⟩ := updateConfig_eq_ok_iff.mp h
      exact absurd (hconfig.symm.trans hnone) (Option.some_ne_none config)
    | _ => cases htarget
  · -- a call about an auction that is not there is a creation, and reads the settings
    obtain ⟨params, _, rfl, -⟩ :=
      (invoke_book hs h htarget).1.of_none (hs.unconfigured hnone id)
    obtain ⟨config, hconfig, -⟩ := createAuction_eq_ok_iff.mp h
    exact absurd (hconfig.symm.trans hnone) (Option.some_ne_none config)

theorem unconfigured_of_isSetup (h : invoke env s c = .ok o) (hc : c.isSetup = true) :
    s.config = none := by
  cases c with
  | initializeContract => exact (initializeContract_eq_ok_iff.mp h).1.2
  | _ => cases hc

/-- **A call changes the settings as it says**, and no others do. -/
theorem config_of_invoke (h : invoke env s c = .ok o) :
    o.storage.config = c.configure s.config := by
  rcases hglobal : c.isGlobal with _ | _
  · rw [(invoke_global h hglobal).2.1]
    cases c with
    | initializeContract => cases hglobal
    | updateConfig => cases hglobal
    | _ => rfl
  · cases c with
    | initializeContract =>
      obtain ⟨-, rfl⟩ := initializeContract_eq_ok_iff.mp h
      rfl
    | updateConfig =>
      obtain ⟨config, hconfig, -, rfl⟩ := updateConfig_eq_ok_iff.mp h
      rw [hconfig]
      rfl
    | createAuction =>
      obtain ⟨config, -, -, rfl⟩ := createAuction_eq_ok_iff.mp h
      rfl
    | _ => cases hglobal

/-- The office is not handed on. -/
theorem admin_of_invoke (h : invoke env s c = .ok o) {config : PlatformConfig Address}
    (hconfig : s.config = some config) :
    ∃ config', o.storage.config = some config' ∧ config'.admin = config.admin := by
  rw [config_of_invoke h, hconfig]
  cases c with
  | initializeContract =>
    exact absurd (unconfigured_of_isSetup h rfl) (by simp [hconfig])
  | updateConfig => exact ⟨_, rfl, rfl⟩
  | _ => exact ⟨config, rfl, rfl⟩

theorem isPaused_of_invoke (h : invoke env s c = .ok o) :
    (∃ config, o.storage.config = some config ∧ config.paused = true) ↔
      c.Switches true ∨ ((∃ config, s.config = some config ∧ config.paused = true) ∧
        ¬c.Switches false) := by
  rw [config_of_invoke h]
  cases c with
  | initializeContract =>
    have hnone := unconfigured_of_isSetup h rfl
    simp [Call.configure, Call.Switches, hnone]
  | updateConfig admin fee maxRoyalty paused =>
    obtain ⟨config, hconfig, -⟩ := updateConfig_eq_ok_iff.mp h
    rcases paused with _ | _ | _ <;>
      simp [Call.configure, Call.Switches, hconfig, updatedConfig]
  | _ => simp [Call.configure, Call.Switches]

/-! ### Along a run -/

variable {H : Host Address} {tr : List (Invocation Address)} {w : World H}

/-- **The settings are what the past calls add up to.** -/
theorem Run.config_eq (h : Run H tr w) : w.storage.config = settings tr := by
  have h₀ : ∀ w : World H, w.storage = .empty → w.storage.config = none := by
    intro w hw
    rw [hw]
    rfl
  have h₁ : ∀ (tr : List (Invocation Address)) (w : World H) i w', Run H tr w → Step H w i w' →
      w'.storage.config = [i.call].foldl Call.configure w.storage.config := by
    intro tr w i w' _ hs
    obtain ⟨hbefore, hafter, hret, -, -⟩ := hs.returns
    rw [hbefore] at hret
    rw [hafter]
    exact config_of_invoke hret
  exact History.view_eq_foldl h₀ h₁ h

/-- Whoever is the admin after a call of a run is the admin at its end. -/
theorem Run.admin_since (h : Run H tr w) : ∀ i ∈ tr, ∀ config,
    i.outcome.storage.config = some config →
      ∃ config', w.storage.config = some config' ∧ config'.admin = config.admin := by
  induction h with
  | start => exact fun i hi => absurd hi List.not_mem_nil
  | @snoc tr w w' j h hs ih =>
    intro i hi config hconfig
    obtain ⟨hbefore, hafter, hret, -, -⟩ := hs.returns
    rw [hbefore] at hret
    rw [hafter]
    rcases List.mem_append.mp hi with hi | hi
    · obtain ⟨config₁, hconfig₁, hadmin⟩ := ih i hi config hconfig
      obtain ⟨config', hconfig', hadmin'⟩ := admin_of_invoke hret hconfig₁
      exact ⟨config', hconfig', hadmin'.trans hadmin⟩
    · rw [← List.mem_singleton.mp hi]
      exact ⟨config, hconfig, rfl⟩

/-- There are settings as soon as there is a past. -/
theorem Run.configured (h : Run H tr w) : w.storage.config = none ↔ tr = [] := by
  cases h with
  | start hw =>
    rw [hw]
    exact iff_of_true rfl rfl
  | @snoc tr w w' i h hs =>
    refine iff_of_false (fun hnone => ?_) (by simp)
    obtain ⟨hbefore, hafter, hret, -, -⟩ := hs.returns
    rw [hbefore] at hret
    rw [hafter] at hnone
    rcases hconfig : w.storage.config with _ | config
    · have hsetup := isSetup_of_unconfigured (Run.fresh h) hconfig hret
      rw [config_of_invoke hret] at hnone
      cases hcall : i.call with
      | initializeContract =>
        rw [hcall] at hnone
        cases hnone
      | _ =>
        rw [hcall] at hsetup
        cases hsetup
    · obtain ⟨config', hconfig', -⟩ := admin_of_invoke hret hconfig
      exact absurd (hconfig'.symm.trans hnone) (Option.some_ne_none config')

/-- **Who runs the platform**, along a run. -/
structure Administered {H : Host Address} (tr : List (Invocation Address)) (w : World H) :
    Prop where
  /-- The platform is set up by the first call, and by no other. -/
  opening : ∀ i later, tr = i :: later →
    i.call.isSetup = true ∧ ∀ j ∈ later, j.call.isSetup = false
  /-- The settings that a call sees are what the calls before it add up to. -/
  inForce : ∀ past i later, tr = past ++ i :: later → i.before.config = settings past
  /-- Whoever set the platform up signed for it, and is the admin from then on. -/
  appointed : ∀ i ∈ tr, ∀ admin fee maxRoyalty wallet,
    i.call = .initializeContract admin fee maxRoyalty wallet →
      i.env.auth admin = true ∧
        ∃ config, w.storage.config = some config ∧ config.admin = admin
  /-- Nobody but the admin changes the settings. -/
  authority : ∀ i ∈ tr, ∀ admin fee maxRoyalty paused,
    i.call = .updateConfig admin fee maxRoyalty paused →
      i.env.auth admin = true ∧
        ∃ config, w.storage.config = some config ∧ config.admin = admin
  /-- A creation is held to the settings of its moment, and takes its fee from them. -/
  creation : ∀ past i later params, tr = past ++ i :: later → i.call = .createAuction params →
    ∃ config, settings past = some config ∧ AcceptsAuction i.env params config ∧
      i.outcome.storage.auctions i.before.nextId =
        some (newAuction params i.before.nextId config.defaultPlatformFeeBps)
  /-- The platform answers that it is paused before it is set up, and from a call that pauses it
  until one that does not. -/
  paused : isPaused w.storage = true ↔
    tr = [] ∨ History.Since (·.call.Switches true) (fun i => ¬i.call.Switches false) tr

/-- **Who runs the platform**, in any run. -/
theorem Run.administered (h : Run H tr w) : Administered tr w where
  opening := by
    rintro i later rfl
    constructor
    · obtain ⟨t, t', hpast, hs, -⟩ : ∃ t t', Run H [] t ∧ Step H t i t' ∧ _ := History.at_step h
      obtain ⟨hbefore, -, hret, -, -⟩ := hs.returns
      -- before the first call there are no settings, and only the setup runs without
      have hnone := (Run.configured hpast).mpr rfl
      rw [hbefore] at hret
      exact isSetup_of_unconfigured (Run.fresh hpast) hnone hret
    · intro j hj
      obtain ⟨l₁, l₂, rfl⟩ := List.append_of_mem hj
      obtain ⟨t, t', hpast, hs, -⟩ : ∃ t t', Run H (i :: l₁) t ∧ Step H t j t' ∧ _ :=
        History.at_step h
      obtain ⟨hbefore, -, hret, -, -⟩ := hs.returns
      rw [hbefore] at hret
      rcases hsetup : j.call.isSetup with _ | _
      · rfl
      · -- a second setup would need a past without any call
        have hnil := (Run.configured hpast).mp (unconfigured_of_isSetup hret hsetup)
        cases hnil
  inForce := by
    rintro past i later rfl
    obtain ⟨t, t', hpast, hs, -⟩ := History.at_step h
    rw [hs.returns.1]
    exact Run.config_eq hpast
  appointed := by
    rintro i hi admin fee maxRoyalty wallet hcall
    obtain ⟨past, t, t', hpast, hs, -⟩ := History.of_mem h hi
    obtain ⟨-, -, hret, -, -⟩ := hs.returns
    rw [hcall] at hret
    obtain ⟨⟨hauth, -⟩, ho⟩ := initializeContract_eq_ok_iff.mp hret
    exact ⟨hauth, Run.admin_since h i hi _ (by rw [ho]; rfl)⟩
  authority := by
    rintro i hi admin fee maxRoyalty paused hcall
    obtain ⟨past, t, t', hpast, hs, -⟩ := History.of_mem h hi
    obtain ⟨-, -, hret, -, -⟩ := hs.returns
    rw [hcall] at hret
    obtain ⟨config, hconfig, ⟨hauth, rfl⟩, ho⟩ := updateConfig_eq_ok_iff.mp hret
    obtain ⟨config', hconfig', hadmin⟩ :=
      Run.admin_since h i hi (updatedConfig config fee maxRoyalty paused) (by rw [ho]; rfl)
    exact ⟨hauth, config', hconfig', hadmin⟩
  creation := by
    rintro past i later params rfl hcall
    obtain ⟨t, t', hpast, hs, -⟩ := History.at_step h
    obtain ⟨hbefore, -, hret, -, -⟩ := hs.returns
    rw [hcall] at hret
    obtain ⟨config, hconfig, ok, ho⟩ := createAuction_eq_ok_iff.mp hret
    refine ⟨config, ?_, ok, ?_⟩
    · rw [← Run.config_eq hpast, ← hbefore]
      exact hconfig
    · rw [ho]
      exact congrArg Book.auction (Storage.book_setAuction_self _ i.before.nextId _)
  paused := by
    -- the switch is what was last written, from the steps by the library
    have hstart : ∀ w : World H, w.storage = .empty →
        ¬∃ config, w.storage.config = some config ∧ config.paused = true := by
      rintro w hw ⟨config, hconfig, -⟩
      rw [hw] at hconfig
      cases hconfig
    have hstep : ∀ (w : World H) i w', Step H w i w' →
        ((∃ config, w'.storage.config = some config ∧ config.paused = true) ↔
          i.call.Switches true ∨ ((∃ config, w.storage.config = some config ∧
            config.paused = true) ∧ ¬i.call.Switches false)) := by
      intro w i w' hs
      obtain ⟨hbefore, hafter, hret, -, -⟩ := hs.returns
      rw [hbefore] at hret
      rw [hafter]
      exact isPaused_of_invoke hret
    rw [← Run.configured h, ← History.since_iff hstart hstep h, isPaused]
    rcases w.storage.config with _ | config <;> simp

/-- The admin raises the fee and pauses the platform, goes on, and an auction is created under the
new fee. -/
def Stage.governed : List (Tx ℕ × Call ℕ) :=
  Stage.opening .english Stage.painting ++
    [(Stage.signed 1 1, .updateConfig 1 (some (.of 300)) none (some true)),
      (Stage.signed 2 1, .activateAuction 0),
      (Stage.signed 1 (.of 2), .updateConfig 1 none none (some false)),
      (Stage.signed 2 (.of 3), .createAuction (Stage.params .dutch Stage.mask))]

/-- The theorem at these settings. -/
theorem administered_governed : ∃ (tr : List (Invocation ℕ)) (w : World Stage.host),
    Run Stage.host tr w ∧ isPaused w.storage = false ∧
      (w.storage.auctions 1).map (·.platformFeeBps) = some (.of 300) ∧ Administered tr w := by
  have hreplay : (replay Stage.start Stage.governed).map (fun r =>
      (isPaused r.2.storage, (r.2.storage.auctions 1).map (·.platformFeeBps))) =
        some (false, some (.of 300)) := by
    decide +kernel
  obtain ⟨tr, w, hrun, hv⟩ := exists_run_of_replay Stage.world_refl rfl hreplay
  simp only [Prod.mk.injEq] at hv
  exact ⟨tr, w, hrun, hv.1, hv.2, hrun.administered⟩

end UrithiBidz
