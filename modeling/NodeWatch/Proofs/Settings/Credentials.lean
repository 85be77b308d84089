import NodeWatch.Settings
import NodeWatch.Proofs.Path

/-!
# Where the Credentials Come From

A user name, a password and the name of a cookie file can each be told by a
flag or by a variable. The two do not agree on what is missing: a flag with an
empty value says that the value is empty, and an empty variable says nothing.
`Told` is this rule, once for all of them.

Whoever gives a user or a password is not asked for a cookie file, and no part
of a cookie file is mixed with what was given. Otherwise there is at most one
file to read. What was named has to be readable, and its fault is handed on as
it is. The file that is only expected may be missing, and there may be no place
to expect it at; both leave the credentials empty. Where it is expected is said
by the names on the way there, from the directory that was given or from the
one of the user; `Path.Place` says what text a way has.

The files that are read are part of the result. That the list is complete is
said in the only way in which it can be seen: readers that agree on the listed
files lead to the same settings.

## Main definitions

* `Told`: What a flag and a variable say together.
* `Subdirectory`, `Usual`: Where a chain has its files, and where a user has them.
* `Expected`: The place where the cookie file of a chain should be.
* `Consults`: The file that is read.

## Theorems

* `told_iff`: Something or nothing is told, and only one thing.
* `expected_iff`: There is one place where the file should be.
* `expected_of_plain`: The file behind a directory in its plainest form.
* `not_exists_consults_iff`: When no file can be found to read.
* `resolve_of_given`, `resolve_of_file`, `resolve_of_nowhere`: The three ways
  to the settings.
* `resolve_congr`: Only the listed files matter.
* `length_resolve_le`, `resolve_eq_nil_iff`: How many files are read.
* `credentials_of_resolve`: The credentials of the settings, and what was read.
-/

namespace NodeWatch

/-- The environment that has given variables. The directory of the user is
    what the system says it is, which need not be a variable. -/
def Environment.within (platform home : Text) (values : List (Text × Text)) : Environment :=
  { Environment.ofVariables platform values with home }

namespace Settings

/-- What a flag and a variable say together. The flag goes first, and it says
    something even if that is empty; an empty variable says nothing. -/
inductive Told (values : List (Text × Text)) (flag : Option Text) (name : Text) :
    Option Text → Prop where
  | flag {said : Text} (hflag : flag = some said) : Told values flag name (some said)
  | variable {said : Text} (hflag : flag = none) (hvalue : values.lookup name = some said)
      (hne : said ≠ []) : Told values flag name (some said)
  | nothing (hflag : flag = none) (hempty : ∀ said ∈ values.lookup name, said = []) :
      Told values flag name none

/-- The directory of a chain in the directory of the node, which the main chain
    shares. -/
inductive Subdirectory : Chain → Text → Prop where
  | main : Subdirectory .main ""
  | testnet : Subdirectory .testnet "testnet3"
  | signet : Subdirectory .signet "signet"
  | regtest : Subdirectory .regtest "regtest"

/-- The directory of the node under the one of the user. -/
inductive Usual (user : Path.Place) : Text → Path.Place → Prop where
  | darwin : Usual user "darwin"
      (((user.enter "Library").enter "Application Support").enter "Bitcoin")
  | other {platform : Text} (h : platform ≠ "darwin") : Usual user platform (user.enter ".bitcoin")

/-- The place where the cookie file of the chain should be: under a directory
    that was given, even an empty one, or else under the one that the user has. -/
inductive Expected (o : CommandLine.Options) (platform home : Text) : Text → Prop where
  | given {directory name : Text} {place : Path.Place} (hgiven : o.datadir = some directory)
      (hplace : Path.Leads directory place) (hname : Subdirectory o.chain name) :
      Expected o platform home ((place.enter name).enter ".cookie").text
  | usual {name : Text} {user place : Path.Place} (hgiven : o.datadir = none) (hhome : home ≠ [])
      (huser : Path.Leads home user) (husual : Usual user platform place)
      (hname : Subdirectory o.chain name) :
      Expected o platform home ((place.enter name).enter ".cookie").text

/-- The file that is read: the one that was named, or else the expected one. -/
inductive Consults (o : CommandLine.Options) (platform home : Text) (cookie : Option Text) :
    Text → Prop where
  | named {file : Text} (hcookie : cookie = some file) : Consults o platform home cookie file
  | expected {file : Text} (hcookie : cookie = none) (hfile : Expected o platform home file) :
      Consults o platform home cookie file

section Told

variable {values : List (Text × Text)} {flag said : Option Text} {name file : Text}
  {o : CommandLine.Options} {platform home : Text} {cookie : Option Text}

theorem told_iff :
    Told values flag name said ↔ flag.or ((values.lookup name).filter (· ≠ [])) = said := by
  constructor
  · rintro (⟨rfl⟩ | ⟨rfl, hvalue, hne⟩ | ⟨rfl, hempty⟩)
    · rfl
    · rw [Option.none_or, hvalue, Option.filter_some, if_pos (decide_eq_true hne)]
    · rw [Option.none_or, Option.filter_eq_none_iff]
      exact fun said hsaid hne => of_decide_eq_true hne (hempty said hsaid)
  · rintro rfl
    cases flag with
    | some said => exact .flag rfl
    | none =>
        rw [Option.none_or]
        cases hfilter : (values.lookup name).filter (· ≠ []) with
        | none =>
            refine .nothing rfl fun said hsaid => ?_
            have hempty := Option.filter_eq_none_iff.mp hfilter said hsaid
            exact Classical.not_not.mp fun hne => hempty (decide_eq_true hne)
        | some said =>
            rcases Option.filter_eq_some_iff.mp hfilter with ⟨hvalue, hne⟩
            exact .variable rfl hvalue (of_decide_eq_true hne)

theorem subdirectory_iff {chain : Chain} {name : Text} :
    Subdirectory chain name ↔ name = chain.directory := by
  constructor
  · rintro (_ | _ | _ | _) <;> rfl
  · rintro rfl
    cases chain <;> constructor

theorem pathIn_of_leads {directory : Text} {place : Path.Place} (h : Path.Leads directory place)
    (chain : Chain) :
    Cookie.pathIn chain directory = ((place.enter chain.directory).enter ".cookie").text := by
  refine Path.join_of_leads h [chain.directory] ?_ ⟨?_, ?_, ?_, ?_⟩
  · exact List.forall_mem_singleton.mpr (by cases chain <;> decide)
  all_goals decide

theorem dataDirectory_of_leads (platform : Text) {user : Path.Place} (hhome : home ≠ [])
    (h : Path.Leads home user) :
    ∃ place, Usual user platform place ∧ place.Proper ∧
      Cookie.dataDirectory platform home = .ok place.text := by
  rw [Cookie.dataDirectory, if_neg hhome]
  by_cases hplatform : platform = ("darwin" : Text)
  · subst hplatform
    refine ⟨_, .darwin, ?_, congrArg Except.ok ?_⟩
    · exact ((h.proper.enter (by decide)).enter (by decide)).enter (by decide)
    · refine Path.join_of_leads h ["Library", "Application Support"] (by decide)
        ⟨?_, ?_, ?_, ?_⟩
      all_goals decide
  · refine ⟨_, .other hplatform, h.proper.enter (by decide), ?_⟩
    rw [if_neg hplatform]
    refine congrArg Except.ok (Path.join_of_leads h [] (fun n hn => nomatch hn)
      ⟨?_, ?_, ?_, ?_⟩)
    all_goals decide

theorem Usual.unique {user p q : Path.Place} (hp : Usual user platform p)
    (hq : Usual user platform q) : p = q := by
  cases hp with
  | darwin =>
      cases hq with
      | darwin => rfl
      | other h => exact absurd rfl h
  | other h =>
      cases hq with
      | darwin => exact absurd rfl h
      | other => rfl

/-- There is one place where the file should be. -/
theorem expected_iff :
    Expected o platform home file ↔ Cookie.path o.chain o.datadir platform home = .ok file := by
  constructor
  · rintro (⟨hgiven, hplace, hname⟩ | ⟨hgiven, hhome, huser, husual, hname⟩)
    · rw [Cookie.path.eq_def, hgiven, subdirectory_iff.mp hname]
      exact congrArg Except.ok (pathIn_of_leads hplace o.chain)
    · rcases dataDirectory_of_leads platform hhome huser with ⟨place, husual', hproper, hdirectory⟩
      obtain rfl := husual.unique husual'
      rw [Cookie.path.eq_def, hgiven, hdirectory, subdirectory_iff.mp hname]
      exact congrArg Except.ok (pathIn_of_leads (Path.leads_text hproper) o.chain)
  · intro h
    have hname : Subdirectory o.chain o.chain.directory := subdirectory_iff.mpr rfl
    rw [Cookie.path.eq_def] at h
    cases hgiven : o.datadir with
    | some directory =>
        rcases Path.exists_leads directory with ⟨place, hplace⟩
        rw [hgiven] at h
        rw [← Except.ok.inj h, pathIn_of_leads hplace]
        exact .given hgiven hplace hname
    | none =>
        rw [hgiven] at h
        by_cases hhome : home = []
        · simp only [hhome, Cookie.dataDirectory, if_true, Except.map, reduceCtorEq] at h
        · rcases Path.exists_leads home with ⟨user, huser⟩
          rcases dataDirectory_of_leads platform hhome huser with
            ⟨place, husual, hproper, hdirectory⟩
          rw [hdirectory] at h
          rw [← Except.ok.inj h, pathIn_of_leads (Path.leads_text hproper)]
          exact .usual hgiven hhome huser husual hname

theorem isName_cookie : Path.IsName ".cookie" := by
  constructor <;> decide

/-- Behind a directory in its plainest form the file stands as it is written. -/
theorem expected_of_plain {place : Path.Place} (h : place.Proper) (hsteps : place.steps ≠ [])
    (hgiven : o.datadir = some place.text) :
    Expected o platform home (place.text ++ (match o.chain with
      | .main => ("" : Text)
      | .testnet => "/testnet3"
      | .signet => "/signet"
      | .regtest => "/regtest") ++ "/.cookie") := by
  have hplace := Path.leads_text h
  -- A test chain has a directory of its own, and the main chain does not.
  have hbelow : ∀ name : Text, Path.IsName name → Subdirectory o.chain name →
      Expected o platform home (place.text ++ Path.slash :: name ++ "/.cookie") := by
    intro name hname hchain
    have hmore : (place.enter name).steps ≠ [] :=
      Path.steps_enter place hname ▸ List.concat_ne_nil name place.steps
    have hfile : Expected o platform home _ := .given hgiven hplace hchain
    rw [Path.text_enter (h.enter hname.no_slash) hmore isName_cookie,
      Path.text_enter h hsteps hname] at hfile
    exact hfile
  cases hchain : o.chain with
  | main =>
      have hfile : Expected o platform home _ :=
        .given hgiven hplace (subdirectory_iff.mpr (congrArg Chain.directory hchain.symm))
      have hshared : place.enter (Chain.directory .main) = place := rfl
      rw [hshared, Path.text_enter h hsteps isName_cookie] at hfile
      rw [List.append_assoc]
      exact hfile
  | testnet => exact hbelow "testnet3" (by constructor <;> decide) (hchain ▸ .testnet)
  | signet => exact hbelow "signet" (by constructor <;> decide) (hchain ▸ .signet)
  | regtest => exact hbelow "regtest" (by constructor <;> decide) (hchain ▸ .regtest)

/-- There is a file to read unless none is named, and neither a directory for
    the files of the node nor one of the user is known. -/
theorem not_exists_consults_iff :
    (¬ ∃ file, Consults o platform home cookie file) ↔
      cookie = none ∧ o.datadir = none ∧ home = [] := by
  constructor
  · intro h
    have hcookie : cookie = none :=
      Option.eq_none_iff_forall_ne_some.mpr fun file hc => h ⟨file, .named hc⟩
    have hnowhere : ∀ file, Cookie.path o.chain o.datadir platform home ≠ .ok file :=
      fun file hc => h ⟨file, .expected hcookie (expected_iff.mpr hc)⟩
    have hdatadir : o.datadir = none := by
      refine Option.eq_none_iff_forall_ne_some.mpr fun directory hc => ?_
      rw [hc] at hnowhere
      exact hnowhere _ rfl
    refine ⟨hcookie, hdatadir, Classical.not_not.mp fun hne => ?_⟩
    rw [hdatadir, Cookie.path.eq_def, Cookie.dataDirectory, if_neg hne] at hnowhere
    exact hnowhere _ rfl
  · rintro ⟨rfl, hdatadir, rfl⟩ ⟨file, ⟨hcookie⟩ | ⟨-, hexpected⟩⟩
    · exact absurd hcookie.symm (Option.some_ne_none file)
    · have hpath := expected_iff.mp hexpected
      rw [hdatadir] at hpath
      exact nomatch hpath

end Told

/-! ### From the source to the settings -/

section Resolved

variable {o : CommandLine.Options} {env : Environment} {host : Text} {port ms : Double}
  {user password cookie : Option Text} {read : Text → Except Cookie.Error Rpc.Credentials}

/-- Nothing is asked of a reader but the file that has to be read. -/
theorem settle_congr {d : Draft} {other : Text → Except Cookie.Error Rpc.Credentials}
    (h : ∀ file ∈ d.file?.toList, other file = read file) : d.settle other = d.settle read := by
  rw [Draft.file?] at h
  rw [Draft.settle, Draft.settle]
  cases hsource : d.source with
  | given credentials => rfl
  | nowhere => rfl
  | file path named =>
      rw [hsource] at h
      simp only [h path List.mem_cons_self]

/-- No second file is read. -/
theorem length_resolve_le : (resolve read o env).1.length ≤ 1 := by
  rw [resolve]
  cases draft o env with
  | error fault => exact Nat.zero_le 1
  | ok d => exact Option.length_toList_le

/-- Only the listed files matter. -/
theorem resolve_congr {other : Text → Except Cookie.Error Rpc.Credentials}
    (h : ∀ file ∈ (resolve read o env).1, other file = read file) :
    resolve other o env = resolve read o env := by
  rw [resolve] at h ⊢
  rw [resolve]
  cases hdraft : draft o env with
  | error fault => rfl
  | ok d =>
      rw [hdraft] at h
      exact congrArg (Prod.mk d.file?.toList) (settle_congr h)

variable (hhost : (o.host.or env.host).getD defaultHost = host) (hvisible : host.isBlank = false)
  (hport : portOf o env = .ok port) (hrefresh : refreshOf o = .ok ms)
  (huser : o.user.or env.user = user) (hpassword : o.password.or env.password = password)
  (hcookie : o.cookie.or env.cookie = cookie)

include hhost hvisible hport hrefresh

theorem resolve_of_source {source : Source} (hsource : sourceOf o env = source) :
    resolve read o env = ((Draft.mk o.chain host port ms source).file?.toList,
      (Draft.mk o.chain host port ms source).settle read) := by
  have hdraft : draft o env = .ok ⟨o.chain, host, port, ms, source⟩ := by
    simp only [draft, hhost, hvisible, hport, hrefresh, hsource, Bool.false_eq_true, if_false]
  rw [resolve, hdraft]

include huser hpassword

/-- Whoever tells a part of the credentials tells all of them. -/
theorem resolve_of_given (h : user ≠ none ∨ password ≠ none) :
    resolve read o env = ([], .ok ⟨o.chain,
      ⟨host, port, ⟨user.getD [], password.getD []⟩, defaultTimeoutMs⟩, ms, .password, none⟩) := by
  have hsource : sourceOf o env = .given ⟨user.getD [], password.getD []⟩ := by
    subst huser hpassword
    rw [sourceOf]
    split
    · next hnouser hnopassword =>
        exact absurd h (not_or.mpr ⟨fun hne => hne hnouser, fun hne => hne hnopassword⟩)
    · rfl
  exact resolve_of_source hhost hvisible hport hrefresh hsource

include hcookie

/-- The one file that is read, and what becomes of it. -/
theorem resolve_of_file (hnouser : user = none) (hnopassword : password = none) {file : Text}
    (hfile : Consults o env.platform env.home cookie file) :
    resolve read o env = ([file],
      match read file with
      | .ok credentials => .ok ⟨o.chain, ⟨host, port, credentials, defaultTimeoutMs⟩, ms, .cookie,
          some file⟩
      | .error fault =>
        if cookie.isSome then .error (.cookie fault)
        else .ok ⟨o.chain, ⟨host, port, ⟨[], []⟩, defaultTimeoutMs⟩, ms, .anonymous,
          some file⟩) := by
  have hsource : sourceOf o env = .file file cookie.isSome := by
    rw [sourceOf, huser, hpassword, hcookie, hnouser, hnopassword]
    rcases hfile with ⟨rfl⟩ | ⟨rfl, hexpected⟩
    · rfl
    · simp only [expected_iff.mp hexpected, Option.isSome_none]
  rw [resolve_of_source hhost hvisible hport hrefresh hsource]
  cases hread : read file with
  | error fault =>
      simp only [Draft.settle, hread]
      rfl
  | ok credentials =>
      simp only [Draft.settle, hread]
      rfl

theorem resolve_of_nowhere (hnouser : user = none) (hnopassword : password = none)
    (hfile : ¬ ∃ file, Consults o env.platform env.home cookie file) :
    resolve read o env = ([], .ok ⟨o.chain, ⟨host, port, ⟨[], []⟩, defaultTimeoutMs⟩, ms,
      .anonymous, none⟩) := by
  rcases not_exists_consults_iff.mp hfile with ⟨hnone, hdatadir, hhome⟩
  have hsource : sourceOf o env = .nowhere := by
    rw [sourceOf, huser, hpassword, hcookie, hnouser, hnopassword, hnone, Cookie.path.eq_def,
      hdatadir, hhome]
    rfl
  exact resolve_of_source hhost hvisible hport hrefresh hsource

/-- No file is read if something is told of the credentials or if there is no place to look,
    and only then. -/
theorem resolve_eq_nil_iff :
    (resolve read o env).1 = [] ↔ (user ≠ none ∨ password ≠ none) ∨
      cookie = none ∧ o.datadir = none ∧ env.home = [] := by
  by_cases htold : user ≠ none ∨ password ≠ none
  · rw [resolve_of_given hhost hvisible hport hrefresh huser hpassword htold]
    exact ⟨fun _ => .inl htold, fun _ => rfl⟩
  rcases not_or.mp htold with ⟨huserNot, hpasswordNot⟩
  have hnouser : user = none := Classical.not_not.mp huserNot
  have hnopassword : password = none := Classical.not_not.mp hpasswordNot
  rw [← not_exists_consults_iff]
  by_cases hfile : ∃ file, Consults o env.platform env.home cookie file
  · rcases hfile with ⟨file, hfile⟩
    rw [resolve_of_file hhost hvisible hport hrefresh huser hpassword hcookie hnouser hnopassword
      hfile]
    exact ⟨fun h => absurd h (List.cons_ne_nil file []),
      fun h => absurd h (not_or.mpr ⟨htold, fun hnone => hnone ⟨file, hfile⟩⟩)⟩
  · rw [resolve_of_nowhere hhost hvisible hport hrefresh huser hpassword hcookie hnouser
      hnopassword hfile]
    exact ⟨fun _ => .inr hfile, fun _ => rfl⟩

end Resolved

/-- The credentials of settings whose host, port and interval are accepted.

    At most one file is read, and none if a user or a password is told or if
    there is no place to look. What is told of the credentials is all there is.
    Otherwise the file decides: its credentials are taken as they are, its fault
    is handed on if it was named, and if not there are no credentials. Two
    readers that agree on what was read come to the same end. -/
theorem credentials_of_resolve {o : CommandLine.Options} {platform home : Text}
    {values : List (Text × Text)} {host user password cookie : Option Text} {port ms : Double}
    (hhost : Told values o.host "BLOCKTOP_RPC_HOST" host)
    (huser : Told values o.user "BLOCKTOP_RPC_USER" user)
    (hpassword : Told values o.password "BLOCKTOP_RPC_PASSWORD" password)
    (hcookie : Told values o.cookie "BLOCKTOP_COOKIE" cookie)
    (hvisible : (host.getD defaultHost).isBlank = false)
    (hport : portOf o (.within platform home values) = .ok port)
    (hrefresh : refreshOf o = .ok ms) (read : Text → Except Cookie.Error Rpc.Credentials) :
    let outcome := resolve read o (.within platform home values)
    let settled (credentials : Rpc.Credentials) (access : Access) (file : Option Text) : Settings :=
      ⟨o.chain, ⟨host.getD defaultHost, port, credentials, defaultTimeoutMs⟩, ms, access, file⟩
    outcome.1.length ≤ 1 ∧
      (outcome.1 = [] ↔ (user ≠ none ∨ password ≠ none) ∨
        cookie = none ∧ o.datadir = none ∧ home = []) ∧
      (user ≠ none ∨ password ≠ none →
        outcome.2 = .ok (settled ⟨user.getD [], password.getD []⟩ .password none)) ∧
      (user = none → password = none →
        (∀ file, Consults o platform home cookie file → outcome.1 = [file] ∧
          (∀ credentials, read file = .ok credentials →
            outcome.2 = .ok (settled credentials .cookie (some file))) ∧
          ∀ fault, read file = .error fault →
            (cookie ≠ none → outcome.2 = .error (.cookie fault)) ∧
            (cookie = none → outcome.2 = .ok (settled ⟨[], []⟩ .anonymous (some file)))) ∧
        (cookie = none → o.datadir = none → home = [] →
          outcome.2 = .ok (settled ⟨[], []⟩ .anonymous none))) ∧
      ∀ other, (∀ file ∈ outcome.1, other file = read file) →
        resolve other o (.within platform home values) = outcome := by
  intro outcome settled
  let env := Environment.within platform home values
  have hhost' : (o.host.or env.host).getD defaultHost = host.getD defaultHost :=
    congrArg (·.getD defaultHost) (told_iff.mp hhost)
  have huser' : o.user.or env.user = user := told_iff.mp huser
  have hpassword' : o.password.or env.password = password := told_iff.mp hpassword
  have hcookie' : o.cookie.or env.cookie = cookie := told_iff.mp hcookie
  refine ⟨length_resolve_le, resolve_eq_nil_iff hhost' hvisible hport hrefresh huser' hpassword'
    hcookie', fun htold => ?_, fun hnouser hnopassword => ⟨fun file hfile => ?_,
    fun hnone hdatadir hhome => ?_⟩, fun _ => resolve_congr⟩
  · exact congrArg Prod.snd
      (resolve_of_given hhost' hvisible hport hrefresh huser' hpassword' htold)
  · have houtcome : outcome = _ := resolve_of_file hhost' hvisible hport hrefresh huser' hpassword'
      hcookie' hnouser hnopassword hfile
    rw [houtcome]
    refine ⟨rfl, fun credentials hread => by simp only [hread, settled], fun fault hread => ?_⟩
    -- Whether the fault counts depends on whether the file was named.
    simp only [hread]
    cases cookie with
    | none => exact ⟨fun hne => absurd rfl hne, fun _ => rfl⟩
    | some named => exact ⟨fun _ => rfl, fun hc => absurd hc (Option.some_ne_none named)⟩
  · exact congrArg Prod.snd (resolve_of_nowhere hhost' hvisible hport hrefresh huser' hpassword'
      hcookie' hnouser hnopassword (not_exists_consults_iff.mpr ⟨hnone, hdatadir, hhome⟩))

/-- A name of the user and no directory: the cookie file of a test chain is
    expected under the directory of the user, and as it was not named, there are
    no credentials if it cannot be read. An empty user name says nothing. -/
theorem credentials_of_resolve_expected :
    let o := { CommandLine.Options.initial with chain := .testnet }
    let values : List (Text × Text) := [("BLOCKTOP_RPC_USER", [])]
    let read : Text → Except Cookie.Error Rpc.Credentials := fun _ => .error (.other "missing")
    let file : Text := "/home/sam/.bitcoin/testnet3/.cookie"
    let outcome := resolve read o (.within "linux" "/home/sam" values)
    outcome.1 = [file] ∧
      outcome.2 = .ok ⟨.testnet, ⟨"127.0.0.1", 18332, ⟨[], []⟩, 10000⟩, 5000, .anonymous,
        some file⟩ := by
  intro o values read file outcome
  have hhost : Told values o.host "BLOCKTOP_RPC_HOST" none := told_iff.mpr rfl
  have huser : Told values o.user "BLOCKTOP_RPC_USER" none := told_iff.mpr rfl
  have hpassword : Told values o.password "BLOCKTOP_RPC_PASSWORD" none := told_iff.mpr rfl
  have hcookie : Told values o.cookie "BLOCKTOP_COOKIE" none := told_iff.mpr rfl
  have hport : portOf o (.within "linux" "/home/sam" values) = .ok (Double.ofNat 18332) := rfl
  have hrefresh : refreshOf o = .ok defaultRefreshMs := rfl
  have houtcome := credentials_of_resolve hhost huser hpassword hcookie (by decide) hport hrefresh
    read
  have hhome : Path.Leads "/home/sam" ⟨true, 0, ["home", "sam"]⟩ := by
    have hwalk : Path.Walk .root (("home" : Text) ++ Path.slash :: "sam") _ :=
      .step (by decide) (.last (by decide))
    exact .absolute hwalk
  have hlinux : ("linux" : Text) ≠ "darwin" := by decide
  have htext : (((Path.Place.enter ⟨true, 0, ["home", "sam"]⟩ ".bitcoin").enter
      "testnet3").enter ".cookie").text = file := by decide
  have hfile : Expected o "linux" "/home/sam" file :=
    htext ▸ .usual rfl (by decide) hhome (.other hlinux) .testnet
  have hread := (houtcome.2.2.2.1 rfl rfl).1 file (.expected rfl hfile)
  exact ⟨hread.1, (hread.2.2 _ rfl).2 rfl⟩

end Settings

end NodeWatch
