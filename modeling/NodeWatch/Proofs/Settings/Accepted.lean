import NodeWatch.CommandLine.Invocation
import NodeWatch.Proofs.Double.Overflow
import NodeWatch.Settings

/-!
# Settings That Are Accepted

Whoever makes a client of the settings has no fault to expect. The port comes
from a flag, from the environment or from the chain, and each of the three is
checked in its own way, or not at all; whatever they let through is a port for
the client as well. The host was checked after it was chosen, so its origin
does not matter, and lookups are made with the same settings but for the time.

The time between two polls is different, since it is checked and then changed.
Seconds that are a number become milliseconds that need not be one: the product
with a thousand may be too great. The check that is made after the change does
not find this, because an infinity is positive too.

## Main definitions

* `CommandLine.Options.Checked`: What the flags let through.

## Theorems

* `CommandLine.checked_of_parse`: The options were checked.
* `Settings.refreshOf_cases`: The time between two polls.
* `Settings.usable_of_resolve`: What can be relied on.
-/

namespace NodeWatch

/-! ### Ports -/

namespace Rpc

theorem isPort_iff {x : Double} :
    isPort x = true ↔ ∃ n : Int, x.toInt? = some n ∧ 1 ≤ n ∧ n ≤ 65535 := by
  rw [isPort]
  cases x.toInt? with
  | none => simp only [Bool.false_eq_true, reduceCtorEq, false_and, exists_false]
  | some n =>
      simp only [Bool.and_eq_true, decide_eq_true_eq, Option.some.injEq, exists_eq_left']

theorem isPort_ofNat {n : Nat} (hlow : 1 ≤ n) (hhigh : n ≤ 65535) :
    isPort (Double.ofNat n) = true := by
  have hfits : n < twoPow 53 := lt_of_le_of_lt hhigh (by decide)
  exact isPort_iff.mpr ⟨n, Double.toInt?_ofNat hfits, by omega, by omega⟩

theorem ofConfig_of_checked {config : Config} (hhost : config.host.isBlank = false)
    (hport : isPort config.port = true) : Client.ofConfig config = .ok ⟨config, 1⟩ := by
  rw [Client.ofConfig, if_neg (Bool.eq_false_iff.mp hhost), if_pos hport]

end Rpc

/-! ### Options -/

namespace CommandLine

/-- What the flags let through. -/
structure Options.Checked (o : Options) : Prop where
  port : ∀ port ∈ o.port, Rpc.isPort port = true
  refresh : ∀ seconds ∈ o.refresh, seconds.isFinite = true ∧ 0 < seconds.value

section Checked

variable {o p : Options} {f : Flag} {raw value : Text}

theorem isPort_of_digits {port : Double} (h : portOfDigits? raw = some port) :
    Rpc.isPort port = true := by
  simp only [portOfDigits?, Option.ite_none_right_eq_some, Option.some.injEq] at h
  rcases h with ⟨-, ⟨hlow, hhigh⟩, rfl⟩
  exact Rpc.isPort_ofNat hlow hhigh

theorem isPort_of_readPort {port : Double} (h : readPort raw = .ok port) :
    Rpc.isPort port = true := by
  rw [readPort] at h
  split at h
  · next hdigits =>
      cases h
      exact isPort_of_digits hdigits
  · exact absurd h (by simp only [reduceCtorEq, not_false_eq_true])

theorem pos_of_readInterval {seconds : Double} (h : readInterval raw = .ok seconds) :
    seconds.isFinite = true ∧ 0 < seconds.value := by
  simp only [readInterval] at h
  split at h
  · next hpos =>
      cases h
      have hzero := Double.lt_iff_value (Double.isFinite_of_toInt? Double.toInt?_zero) hpos.1
      rw [Double.value_of_toInt? Double.toInt?_zero, Int.cast_zero] at hzero
      exact ⟨hpos.1, hzero.mp hpos.2⟩
  · exact absurd h (by simp only [reduceCtorEq, not_false_eq_true])

theorem checked_initial : Options.initial.Checked :=
  ⟨fun _ h => absurd h (Option.not_mem_none _), fun _ h => absurd h (Option.not_mem_none _)⟩

theorem Options.Checked.choose (ho : o.Checked) (f : Flag) : (o.choose f).Checked :=
  ⟨ho.port, ho.refresh⟩

theorem Options.Checked.set (ho : o.Checked) (h : o.set f value = .ok p) : p.Checked := by
  cases f with
  | port =>
      rw [Options.set] at h
      cases hread : readPort value with
      | error fault => simp only [hread, Except.map, reduceCtorEq] at h
      | ok port =>
          simp only [hread, Except.map, Except.ok.injEq] at h
          subst h
          exact ⟨fun _ hport => Option.mem_some.mp hport ▸ isPort_of_readPort hread, ho.refresh⟩
  | refresh =>
      rw [Options.set] at h
      cases hread : readInterval value with
      | error fault => simp only [hread, Except.map, reduceCtorEq] at h
      | ok seconds =>
          simp only [hread, Except.map, Except.ok.injEq] at h
          subst h
          exact ⟨ho.port, fun _ hs => Option.mem_some.mp hs ▸ pos_of_readInterval hread⟩
  | _ =>
      cases h
      exact ⟨ho.port, ho.refresh⟩

theorem Options.Checked.setFlag (ho : o.Checked) (h : setFlag o f value = .ok p) :
    p.Checked := by
  rw [CommandLine.setFlag] at h
  cases hset : o.set f value with
  | error fault => simp only [hset, Except.mapError, reduceCtorEq] at h
  | ok q =>
      simp only [hset, Except.mapError, Except.ok.injEq] at h
      exact h ▸ ho.set hset

theorem Options.Checked.scan {kept kept' args : List Text} (ho : o.Checked)
    (h : scan o kept args = .ok (.read p kept')) : p.Checked := by
  fun_induction CommandLine.scan o kept args with
  -- The reading ends.
  | case1 | case2 =>
      cases h
      exact ho
  | case3 | case4 | case5 | case8 => simp only [Except.ok.injEq, reduceCtorEq] at h
  -- A flag is accepted, with its value or without one.
  | case6 _ _ _ _ _ _ _ _ _ _ hset ih => exact ih (ho.setFlag hset) h
  | case7 _ _ _ _ f _ _ _ ih => exact ih (ho.choose f) h
  | case9 _ _ _ _ _ _ _ _ hset ih => exact ih (ho.setFlag hset) h
  -- Other arguments set nothing.
  | case10 _ _ _ _ _ ih => exact ih ho h
  | case11 _ _ _ _ _ ih => exact ih ho h

/-- The options were checked. -/
theorem checked_of_parse {args : List Text} (h : parse args = .ok (.run o)) : o.Checked := by
  rw [parse] at h
  split at h
  · exact absurd h (by simp only [reduceCtorEq, not_false_eq_true])
  · exact absurd h (by simp only [Except.ok.injEq, reduceCtorEq, not_false_eq_true])
  · next hscan =>
      have hchecked := checked_initial.scan hscan
      split at h
      · exact absurd h (by simp only [Except.ok.injEq, reduceCtorEq, not_false_eq_true])
      · split at h
        · cases h
          exact hchecked
        · exact absurd h (by simp only [reduceCtorEq, not_false_eq_true])

end Checked

end CommandLine

/-! ### Settings -/

namespace Settings

section Resolved

variable {o : CommandLine.Options} {env : Environment} {d : Draft} {settings : Settings}
  {read : Text → Except Cookie.Error Rpc.Credentials}

theorem isPort_of_portOf (ho : o.Checked) {port : Double} (h : portOf o env = .ok port) :
    Rpc.isPort port = true := by
  rw [portOf] at h
  cases hflag : o.port with
  | some given =>
      simp only [hflag, Except.ok.injEq] at h
      exact h ▸ ho.port given hflag
  | none =>
      cases hvariable : env.port with
      | none =>
          simp only [hflag, hvariable, Except.ok.injEq] at h
          subst h
          -- The port of a chain is not checked, so each of them has to be looked at.
          cases o.chain <;> exact Rpc.isPort_ofNat (by decide) (by decide)
      | some raw =>
          simp only [hflag, hvariable] at h
          split at h
          · next hdigits =>
              cases h
              exact CommandLine.isPort_of_digits hdigits
          · exact absurd h (by simp only [reduceCtorEq, not_false_eq_true])

theorem toInt?_thousand : (1000 : Double).toInt? = some 1000 :=
  Double.toInt?_ofNat (k := 1000) (by decide)

/-- The time between two polls is a number of milliseconds, unless the seconds
    are too many. -/
theorem refreshOf_cases (ho : o.Checked) {ms : Double} (h : refreshOf o = .ok ms) :
    (∀ seconds ∈ o.refresh, seconds.value * 1000 < Double.overflow) ∧
        (∃ n : Int, ms.toInt? = some n ∧ 0 < n) ∨
      (∃ seconds ∈ o.refresh, Double.overflow ≤ seconds.value * 1000) ∧ ms = .infinite false := by
  rw [refreshOf] at h
  cases hrefresh : o.refresh with
  | none =>
      simp only [hrefresh, Except.ok.injEq] at h
      subst h
      exact .inl ⟨fun _ hs => absurd hs (Option.not_mem_none _), 5000,
        Double.toInt?_ofNat (k := 5000) (by decide), by decide⟩
  | some seconds =>
      simp only [hrefresh] at h
      split at h
      · next hless =>
          cases h
          have hthousand : (1000 : Double).value = 1000 := Double.value_of_toInt? toInt?_thousand
          rcases ho.refresh seconds hrefresh with ⟨hfinite, hpos⟩
          have hcases := Double.mul_cases hfinite (Double.isFinite_of_toInt? toInt?_thousand) hpos
            (by rw [hthousand]; norm_num)
          rw [hthousand] at hcases
          rcases hcases with ⟨hsmall, hproduct, hsign⟩ | ⟨hlarge, hproduct⟩
          · have hround := Double.toInt?_round hproduct hsign
            refine .inl ⟨fun _ hs => Option.mem_some.mp hs ▸ hsmall, _, hround, ?_⟩
            exact (Double.lt_iff Double.toInt?_zero hround).mp hless
          -- An infinity is rounded to itself and passes the check.
          · refine .inr ⟨⟨seconds, rfl, hlarge⟩, ?_⟩
            rw [hproduct]
            rfl
      · exact absurd h (by simp only [reduceCtorEq, not_false_eq_true])

theorem draft_eq_ok (h : draft o env = .ok d) : d.host.isBlank = false ∧
    portOf o env = .ok d.port ∧ refreshOf o = .ok d.refreshMs := by
  simp only [draft] at h
  split at h
  · exact absurd h (by simp only [reduceCtorEq, not_false_eq_true])
  · next hhost =>
      split at h
      · exact absurd h (by simp only [reduceCtorEq, not_false_eq_true])
      · next hport =>
          split at h
          · exact absurd h (by simp only [reduceCtorEq, not_false_eq_true])
          · next hrefresh =>
              cases h
              exact ⟨Bool.eq_false_iff.mpr hhost, hport, hrefresh⟩

/-- Whatever is read, only the credentials come from it. -/
theorem exists_finish_of_settle (h : d.settle read = .ok settings) :
    ∃ credentials access, settings = d.finish credentials access := by
  rw [Draft.settle] at h
  split at h
  · exact ⟨_, _, (Except.ok.inj h).symm⟩
  · exact ⟨_, _, (Except.ok.inj h).symm⟩
  · split at h
    · exact ⟨_, _, (Except.ok.inj h).symm⟩
    · split at h
      · exact absurd h (by simp only [reduceCtorEq, not_false_eq_true])
      · exact ⟨_, _, (Except.ok.inj h).symm⟩

theorem exists_draft_of_resolve (h : (resolve read o env).2 = .ok settings) :
    ∃ d credentials access, draft o env = .ok d ∧ settings = d.finish credentials access := by
  rw [resolve] at h
  split at h
  · exact absurd h (by simp only [reduceCtorEq, not_false_eq_true])
  · next hdraft =>
      rcases exists_finish_of_settle h with ⟨credentials, access, heq⟩
      exact ⟨_, credentials, access, hdraft, heq⟩

/-- What can be relied on when the command line is understood and the settings
    are there. Both clients are accepted: the host is not blank, and the port is
    a whole number from 1 to 65535. Lookups go to the same place with the same
    credentials. The time between two polls is a positive whole number of
    milliseconds, unless a thousand times the seconds that were asked for are
    too great for a double; then it is infinite. -/
theorem usable_of_resolve {args : List Text} (hparse : CommandLine.parse args = .ok (.run o))
    (hresolve : (resolve read o env).2 = .ok settings) :
    (Rpc.Client.ofConfig settings.rpc = .ok ⟨settings.rpc, 1⟩ ∧
        Rpc.Client.ofConfig settings.lookupRpc = .ok ⟨settings.lookupRpc, 1⟩) ∧
      (settings.rpc.host.isBlank = false ∧
        ∃ n : Int, settings.rpc.port.toInt? = some n ∧ 1 ≤ n ∧ n ≤ 65535) ∧
      (settings.lookupRpc.host = settings.rpc.host ∧
        settings.lookupRpc.port = settings.rpc.port ∧
        settings.lookupRpc.credentials = settings.rpc.credentials) ∧
      ((∀ seconds ∈ o.refresh, seconds.value * 1000 < Double.overflow) →
        ∃ n : Int, settings.refreshMs.toInt? = some n ∧ 0 < n) ∧
      ((∃ seconds ∈ o.refresh, Double.overflow ≤ seconds.value * 1000) →
        settings.refreshMs = .infinite false) := by
  have ho := CommandLine.checked_of_parse hparse
  rcases exists_draft_of_resolve hresolve with ⟨d, credentials, access, hdraft, rfl⟩
  rcases draft_eq_ok hdraft with ⟨hhost, hport, hrefresh⟩
  have hisPort := isPort_of_portOf ho hport
  refine ⟨⟨Rpc.ofConfig_of_checked hhost hisPort, Rpc.ofConfig_of_checked hhost hisPort⟩,
    ⟨hhost, Rpc.isPort_iff.mp hisPort⟩, ⟨rfl, rfl, rfl⟩, fun hsmall => ?_, fun hlarge => ?_⟩
  · rcases refreshOf_cases ho hrefresh with ⟨-, hnumber⟩ | ⟨⟨seconds, hs, hlarge⟩, -⟩
    · exact hnumber
    · exact absurd (hsmall seconds hs) (not_lt.mpr hlarge)
  · rcases refreshOf_cases ho hrefresh with ⟨hsmall, -⟩ | ⟨-, hinfinite⟩
    · rcases hlarge with ⟨seconds, hs, hlarge⟩
      exact absurd (hsmall seconds hs) (not_lt.mpr hlarge)
    · exact hinfinite

theorem exists_settings {outcome : Except Fault Settings} {ms : Double}
    (h : outcome.toOption.map (·.refreshMs) = some ms) :
    ∃ settings, outcome = .ok settings ∧ settings.refreshMs = ms := by
  cases outcome with
  | error fault => exact absurd h (by simp only [Except.toOption, Option.map_none, reduceCtorEq,
      not_false_eq_true])
  | ok settings => exact ⟨settings, rfl, Option.some.inj h⟩

/-- The host is from the environment, the credentials are from a file, and a
    poll is made every two and a half seconds. -/
theorem usable_of_resolve_seconds :
    let args : List Text := ["-p", "65535", "-r", "2.5"]
    let o := { CommandLine.Options.initial with
      port := some 65535, refresh := some (Double.ofNumeral "2.5") }
    let env := Environment.ofVariables "linux" [("BLOCKTOP_RPC_HOST", "node")]
    CommandLine.parse args = .ok (.run o) ∧
      (∀ seconds ∈ o.refresh, seconds.value * 1000 < Double.overflow) ∧
      ∃ settings, (resolve (fun _ => .ok ⟨"a", "b"⟩) o env).2 = .ok settings ∧
        Rpc.Client.ofConfig settings.rpc = .ok ⟨settings.rpc, 1⟩ ∧
        ∃ n : Int, settings.refreshMs.toInt? = some n ∧ 0 < n := by
  intro args o env
  have hparse : CommandLine.parse args = .ok (.run o) := by decide +kernel
  have hsmall : ∀ seconds ∈ o.refresh, seconds.value * 1000 < Double.overflow := by
    intro seconds hs
    have hseconds : seconds = .finite false (5 * 2 ^ 50) (-51) (by decide) :=
      (Option.mem_some.mp hs).symm.trans (by decide +kernel)
    have hvalue : seconds.value = 5 / 2 := by
      rw [hseconds, Double.value, if_neg Bool.false_ne_true]
      norm_num
    have hms : (2500 : Double).toInt? = some 2500 := Double.toInt?_ofNat (k := 2500) (by decide)
    calc seconds.value * 1000 = (2500 : Double).value := by
          rw [hvalue, Double.value_of_toInt? hms]
          norm_num
      _ < Double.overflow := Double.value_lt_overflow (Double.isFinite_of_toInt? hms)
  have hms : (resolve (fun _ => .ok ⟨"a", "b"⟩) o env).2.toOption.map (·.refreshMs)
      = some 2500 := by decide +kernel
  rcases exists_settings hms with ⟨settings, hresolve, -⟩
  have husable := usable_of_resolve hparse hresolve
  exact ⟨hparse, hsmall, settings, hresolve, husable.1.1, husable.2.2.2.1 hsmall⟩

/-- So many seconds are a number, and a thousand times as many are not. -/
theorem refresh_not_finite :
    let args : List Text := ["-r", "1e308"]
    let o := { CommandLine.Options.initial with refresh := some (Double.ofNumeral "1e308") }
    let env := Environment.ofVariables "linux" []
    CommandLine.parse args = .ok (.run o) ∧
      ∃ settings, (resolve (fun _ => .ok ⟨"__cookie__", "test-secret"⟩) o env).2 = .ok settings ∧
        settings.refreshMs.isFinite = false := by
  intro args o env
  refine ⟨by decide +kernel, ?_⟩
  have hms : (resolve (fun _ => .ok ⟨"__cookie__", "test-secret"⟩) o env).2.toOption.map
      (·.refreshMs) = some (.infinite false) := by decide +kernel
  rcases exists_settings hms with ⟨settings, hresolve, hinfinite⟩
  exact ⟨settings, hresolve, congrArg Double.isFinite hinfinite⟩

end Resolved

end Settings

end NodeWatch
