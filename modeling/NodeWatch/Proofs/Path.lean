import NodeWatch.Path

/-!
# Where Paths Lead

A path is walked name by name. An empty name and a single dot stay, two dots go
up, and any other name goes down; above the root there is nothing to go up to,
and from anywhere else the steps upwards that nothing cancels are kept. The
place that is reached has one text, and the functions on paths give the text of
the place that they should lead to.

A place says no more than its text does (`leads_text`), so it does not matter
whether a path is put together at once or in pieces.

## Main definitions

* `Place`: A place, seen from the root or from where one is.
* `Place.enter`: The place that a name leads to.
* `Place.text`: The text of a place.
* `Walk`, `Leads`: A path, name by name.

## Theorems

* `walk_iff`, `exists_leads`: Every path leads to one place.
* `stack_step`, `settle_eq`: What cancelling does to a place.
* `normalize_of_leads`: The plainest form is the text of the place.
* `leads_text`: The text of a place leads to it.
* `join_of_leads`: Names put behind a path lead on from its place.
* `text_enter`: The text of a place below another one.
-/

namespace NodeWatch

namespace Path

/-- A place: from the root or from where one is, so many steps upwards and then
    down along names. -/
structure Place where
  rooted : Bool
  ups : Nat
  names : List Text
deriving DecidableEq

namespace Place

/-- The root. -/
def root : Place := ⟨true, 0, []⟩

/-- Where one is. -/
def here : Place := ⟨false, 0, []⟩

/-- The place above: that of the names before the last one. Nothing is above the
    root, and what is above where one is takes a step upwards. -/
def leave (p : Place) : Place :=
  if p.names ≠ [] then { p with names := p.names.dropLast }
  else if p.rooted then p
  else { p with ups := p.ups + 1 }

/-- The place that a name leads to. -/
def enter (p : Place) (name : Text) : Place :=
  if name = [] ∨ name = "." then p
  else if name = ".." then p.leave
  else { p with names := p.names ++ [name] }

/-- The steps of a place. -/
def steps (p : Place) : List Text := List.replicate p.ups (".." : Text) ++ p.names

/-- The text of a place. -/
def text (p : Place) : Text :=
  if p.rooted then slash :: [slash].intercalate p.names
  else if p.steps = [] then "."
  else [slash].intercalate p.steps

end Place

/-- A name that leads down. -/
structure IsName (name : Text) : Prop where
  nonempty : name ≠ []
  not_dot : name ≠ "."
  not_dots : name ≠ ".."
  no_slash : slash ∉ name

/-- A place that a path can lead to: it is reached along names, and nothing is
    above the root. -/
structure Place.Proper (p : Place) : Prop where
  names : ∀ name ∈ p.names, IsName name
  ups : p.rooted = true → p.ups = 0

/-- A path from one place to another, name by name. -/
inductive Walk : Place → Text → Place → Prop where
  | last {p : Place} {name : Text} (h : slash ∉ name) : Walk p name (p.enter name)
  | step {p q : Place} {name rest : Text} (h : slash ∉ name) (hrest : Walk (p.enter name) rest q) :
      Walk p (name ++ slash :: rest) q

/-- The place that a path leads to, from the root if it begins with a slash and
    else from where one is. -/
inductive Leads : Text → Place → Prop where
  | absolute {rest : Text} {q : Place} (h : Walk .root rest q) : Leads (slash :: rest) q
  | relative {path : Text} {q : Place} (hhead : path.head? ≠ some slash) (h : Walk .here path q) :
      Leads path q

/-! ### Walking -/

section Walks

variable {p q place : Place} {path name : Text} {names : List Text}

theorem parts_of_no_slash (h : slash ∉ name) : parts name = [name] := by
  induction name with
  | nil => rfl
  | cons u rest ih =>
      rw [List.mem_cons, not_or] at h
      rw [parts, if_neg (Ne.symm h.1), ih h.2]

theorem parts_append (h : slash ∉ name) (rest : Text) :
    parts (name ++ slash :: rest) = name :: parts rest := by
  induction name with
  | nil => rfl
  | cons u name ih =>
      rw [List.mem_cons, not_or] at h
      rw [List.cons_append, parts, if_neg (Ne.symm h.1), ih h.2]

/-- A path is a name, or a name with a slash and a path behind it. -/
@[elab_as_elim]
theorem name_induction {motive : Text → Prop} (last : ∀ name, slash ∉ name → motive name)
    (step : ∀ name rest, slash ∉ name → motive rest → motive (name ++ slash :: rest))
    (path : Text) : motive path := by
  by_cases h : slash ∈ path
  · rcases List.eq_append_cons_of_mem h with ⟨name, rest, hpath, hname⟩
    have hshorter : rest.length < path.length := by
      rw [hpath, List.length_append, List.length_cons]
      omega
    rw [hpath]
    exact step name rest hname (name_induction last step rest)
  · exact last path h
termination_by path.length

theorem walk_parts (p : Place) (path : Text) : Walk p path ((parts path).foldl Place.enter p) := by
  induction path using name_induction generalizing p with
  | last name h =>
      rw [parts_of_no_slash h]
      exact .last h
  | step name rest h ih =>
      rw [parts_append h]
      exact .step h (ih _)

theorem no_slash_of_mem_parts (path : Text) : ∀ part ∈ parts path, slash ∉ part := by
  induction path using name_induction with
  | last name h =>
      rw [parts_of_no_slash h]
      exact List.forall_mem_singleton.mpr h
  | step name rest h ih =>
      rw [parts_append h]
      exact List.forall_mem_cons.mpr ⟨h, ih⟩

/-- A path leads along the parts between its slashes. -/
theorem walk_iff : Walk p path q ↔ q = (parts path).foldl Place.enter p := by
  constructor
  · intro h
    induction h with
    | last h =>
        rw [parts_of_no_slash h]
        rfl
    | step h _ ih =>
        rw [parts_append h]
        exact ih
  · rintro rfl
    exact walk_parts p path

/-- Every path leads somewhere. -/
theorem exists_leads (path : Text) : ∃ place, Leads path place := by
  by_cases h : path.head? = some slash
  · cases path with
    | nil => exact nomatch h
    | cons u rest =>
        obtain rfl := Option.some.inj h
        exact ⟨_, .absolute (walk_parts _ rest)⟩
  · exact ⟨_, .relative h (walk_parts _ path)⟩

theorem Walk.append (h : Walk p path q) (hname : slash ∉ name) :
    Walk p (path ++ slash :: name) (q.enter name) := by
  induction h with
  | last hlast => exact .step hlast (.last hname)
  | step hstep _ ih =>
      rw [List.append_assoc]
      exact .step hstep ih

theorem Leads.append (h : Leads path place) (hpath : path ≠ []) (hname : slash ∉ name) :
    Leads (path ++ slash :: name) (place.enter name) := by
  cases h with
  | absolute h => exact .absolute (h.append hname)
  | relative hhead h =>
      refine .relative ?_ (h.append hname)
      rcases path with _ | ⟨u, rest⟩
      · exact absurd rfl hpath
      · exact hhead

/-- The empty path stays. -/
theorem place_of_leads_nil (h : Leads [] place) : place = .here := by
  cases h with
  | relative _ h => exact walk_iff.mp h

theorem leads_of_name (h : slash ∉ name) : Leads name (Place.here.enter name) := by
  refine .relative (fun hhead => h ?_) (.last h)
  exact List.mem_of_mem_head? hhead

end Walks

/-! ### Places -/

section Places

variable {p q place : Place} {path name : Text} {names : List Text}

theorem Place.leave_rooted (p : Place) : p.leave.rooted = p.rooted := by
  unfold leave
  split
  · rfl
  · split <;> rfl

theorem Place.enter_rooted (p : Place) (name : Text) : (p.enter name).rooted = p.rooted := by
  unfold enter
  split
  · rfl
  · split
    · exact p.leave_rooted
    · rfl

theorem Place.Proper.leave (h : p.Proper) : p.leave.Proper := by
  unfold Place.leave
  split
  · exact ⟨fun n hn => h.names n (List.dropLast_subset _ hn), h.ups⟩
  · split
    · exact h
    · next hroot => exact ⟨h.names, fun hc => absurd hc hroot⟩

theorem Place.Proper.enter (h : p.Proper) (hname : slash ∉ name) : (p.enter name).Proper := by
  unfold Place.enter
  split
  · exact h
  · next hgoes =>
    split
    · exact h.leave
    · next hdown =>
      refine ⟨fun n hn => ?_, h.ups⟩
      rcases List.mem_append.mp hn with hn | hn
      · exact h.names n hn
      · rw [List.mem_singleton.mp hn]
        exact ⟨fun hc => hgoes (.inl hc), fun hc => hgoes (.inr hc), hdown, hname⟩

theorem Walk.proper (h : Walk p path q) (hp : p.Proper) : q.Proper := by
  induction h with
  | last hlast => exact hp.enter hlast
  | step hstep _ ih => exact ih (hp.enter hstep)

theorem Walk.rooted (h : Walk p path q) : q.rooted = p.rooted := by
  induction h with
  | last => exact Place.enter_rooted _ _
  | step _ _ ih => exact ih.trans (Place.enter_rooted _ _)

theorem proper_root : Place.root.Proper := ⟨fun _ h => absurd h List.not_mem_nil, fun _ => rfl⟩

theorem proper_here : Place.here.Proper := ⟨fun _ h => absurd h List.not_mem_nil, fun _ => rfl⟩

theorem Leads.proper (h : Leads path place) : place.Proper := by
  cases h with
  | absolute h => exact h.proper proper_root
  | relative _ h => exact h.proper proper_here

theorem Place.steps_of_rooted (h : p.Proper) (hrooted : p.rooted = true) : p.steps = p.names := by
  rw [steps, h.ups hrooted]
  rfl

theorem Place.Proper.step_nonempty (h : p.Proper) : ∀ n ∈ p.steps, n ≠ [] ∧ slash ∉ n := by
  intro n hn
  rcases List.mem_append.mp hn with hn | hn
  · rw [(List.mem_replicate.mp hn).2]
    decide
  · exact ⟨(h.names n hn).nonempty, (h.names n hn).no_slash⟩

theorem Place.reverse_steps (p : Place) :
    p.steps.reverse = p.names.reverse ++ List.replicate p.ups (".." : Text) := by
  rw [steps, List.reverse_append, List.reverse_replicate]

/-- Going up takes the last step back if it is a name, and adds one if it is not. -/
theorem stack_leave (h : p.Proper) :
    (match p.steps.reverse with
      | [] => if p.rooted then [] else [(".." : Text)]
      | last :: before =>
        if last = (".." : Text) then (".." : Text) :: p.steps.reverse else before)
      = p.leave.steps.reverse := by
  rw [Place.reverse_steps, Place.reverse_steps]
  rcases p with ⟨rooted, ups, names⟩
  rcases List.eq_nil_or_concat names with rfl | ⟨before, last, hnames⟩
  · cases rooted with
    | true =>
        obtain rfl : ups = 0 := h.ups rfl
        rfl
    | false =>
        cases ups with
        | zero => rfl
        | succ k => rfl
  · rw [List.concat_eq_append] at hnames
    subst hnames
    have hlast : last ≠ (".." : Text) := (h.names last List.mem_concat_self).not_dots
    have hleave : Place.leave ⟨rooted, ups, before ++ [last]⟩ = ⟨rooted, ups, before⟩ := by
      rw [Place.leave, if_pos (List.concat_ne_nil last before), List.dropLast_concat]
    rw [hleave]
    simp only [List.reverse_concat, List.cons_append, if_neg hlast]

/-- Cancelling keeps the steps of the place that has been reached, the last one
    first. -/
theorem stack_step (h : p.Proper) (name : Text) :
    step p.rooted p.steps.reverse name = (p.enter name).steps.reverse := by
  unfold step Place.enter
  by_cases hstay : name = [] ∨ name = (".": Text)
  · rw [if_pos hstay, if_pos hstay]
  rw [if_neg hstay, if_neg hstay]
  by_cases hup : name = ("..": Text)
  · subst hup
    rw [if_pos rfl, if_pos rfl]
    exact stack_leave h
  · rw [if_neg hup, if_neg hup]
    simp only [Place.steps, ← List.append_assoc, List.reverse_concat]

theorem stack_foldl (h : p.Proper) (hnames : ∀ n ∈ names, slash ∉ n) :
    names.foldl (step p.rooted) p.steps.reverse = (names.foldl Place.enter p).steps.reverse := by
  induction names generalizing p with
  | nil => rfl
  | cons n rest ih =>
      rw [List.foldl_cons, List.foldl_cons, stack_step h, ← p.enter_rooted n]
      exact ih (h.enter (hnames n List.mem_cons_self))
        fun m hm => hnames m (List.mem_cons_of_mem n hm)

/-- What is left after cancelling are the steps of the place. -/
theorem settle_eq (hp : p.Proper) (hsteps : p.steps = []) (h : Walk p path q) :
    settle p.rooted (parts path) = q.steps := by
  have hstack := stack_foldl hp (no_slash_of_mem_parts path)
  rw [hsteps, List.reverse_nil] at hstack
  rw [settle, hstack, List.reverse_reverse, walk_iff.mp h]

theorem intercalate_concat {sep name : Text} (hnames : names ≠ []) :
    sep.intercalate (names ++ [name]) = sep.intercalate names ++ sep ++ name := by
  induction names with
  | nil => exact absurd rfl hnames
  | cons n rest ih =>
      rcases rest with _ | ⟨m, rest⟩
      · rw [List.intercalate_singleton, List.singleton_append, List.intercalate_cons_cons,
          List.intercalate_singleton]
      · rw [List.cons_append, List.cons_append, List.intercalate_cons_cons,
          List.intercalate_cons_cons, ← List.cons_append, ih (List.cons_ne_nil m rest)]
        simp only [List.append_assoc]

theorem head?_intercalate {sep : Text} (hname : name ≠ []) :
    (sep.intercalate (name :: names)).head? = name.head? := by
  rcases name with _ | ⟨u, name⟩
  · exact absurd rfl hname
  · cases names with
    | nil => rw [List.intercalate_singleton]
    | cons n rest =>
        rw [List.intercalate_cons_cons]
        rfl

theorem intercalate_eq_nil_iff (hnames : ∀ n ∈ names, n ≠ []) {sep : Text} :
    sep.intercalate names = [] ↔ names = [] := by
  constructor
  · intro h
    rcases names with _ | ⟨n, rest⟩
    · rfl
    · have hn := hnames n List.mem_cons_self
      rcases rest with _ | ⟨m, rest⟩
      · rw [List.intercalate_singleton] at h
        exact absurd h hn
      · rw [List.intercalate_cons_cons, List.append_assoc, List.append_eq_nil_iff] at h
        exact absurd h.1 hn
  · rintro rfl
    rfl

/-- The plainest form of a path is the text of the place that it leads to,
    unless it ends with a slash. -/
theorem normalize_of_leads (h : Leads path place) (hend : path.getLast? ≠ some slash) :
    normalize path = place.text := by
  by_cases hempty : path = []
  · subst hempty
    rw [place_of_leads_nil h]
    rfl
  have hproper := h.proper
  have htrailing : (path.getLast? == some slash) = false := beq_eq_false_iff_ne.mpr hend
  have hnames := fun n hn => (hproper.step_nonempty n hn).1
  simp only [normalize, if_neg hempty, htrailing, Bool.false_eq_true, and_false, if_false]
  cases h with
  | @absolute rest _ h =>
      have hrooted : place.rooted = true := h.rooted
      have hsettle : settle true (parts (slash :: rest)) = place.steps :=
        settle_eq proper_root rfl (.step List.not_mem_nil h)
      rw [List.head?_cons, beq_self_eq_true, hsettle, if_pos rfl, Place.text, if_pos hrooted,
        Place.steps_of_rooted hproper hrooted, if_neg (fun h => Bool.false_ne_true h.2)]
      rfl
  | relative hhead h =>
      have hrooted : place.rooted = false := h.rooted
      have hsettle : settle false (parts path) = place.steps := settle_eq proper_here rfl h
      rw [beq_eq_false_iff_ne.mpr hhead, hsettle, if_neg Bool.false_ne_true, Place.text, hrooted,
        if_neg Bool.false_ne_true]
      simp only [Text.join, Bool.not_false, and_true, intercalate_eq_nil_iff hnames]

theorem walk_intercalate (hne : names ≠ []) (hnames : ∀ n ∈ names, slash ∉ n) (p : Place) :
    Walk p ([slash].intercalate names) (names.foldl Place.enter p) := by
  induction names generalizing p with
  | nil => exact absurd rfl hne
  | cons n rest ih =>
      have hn := hnames n List.mem_cons_self
      rcases rest with _ | ⟨m, rest⟩
      · rw [List.intercalate_singleton]
        exact .last hn
      · rw [List.intercalate_cons_cons, List.append_assoc]
        exact .step hn (ih (List.cons_ne_nil m rest)
          (fun k hk => hnames k (List.mem_cons_of_mem n hk)) _)

/-- Entering the names of a place leads to it. -/
theorem foldl_names (hnames : ∀ n ∈ names, IsName n) (p : Place) :
    names.foldl Place.enter p = { p with names := p.names ++ names } := by
  induction names generalizing p with
  | nil => rw [List.append_nil, List.foldl_nil]
  | cons n rest ih =>
      have hn := hnames n List.mem_cons_self
      have henter : p.enter n = { p with names := p.names ++ [n] } := by
        rw [Place.enter, if_neg (not_or.mpr ⟨hn.nonempty, hn.not_dot⟩), if_neg hn.not_dots]
      rw [List.foldl_cons, ih fun m hm => hnames m (List.mem_cons_of_mem n hm), henter]
      simp only [List.append_assoc, List.singleton_append]

theorem foldl_ups (n : Nat) (k : Nat) :
    (List.replicate n (".." : Text)).foldl Place.enter ⟨false, k, []⟩ = ⟨false, k + n, []⟩ := by
  induction n generalizing k with
  | zero => rfl
  | succ n ih =>
      rw [List.replicate_succ, List.foldl_cons]
      refine (ih (k + 1)).trans ?_
      rw [Nat.add_assoc, Nat.add_comm 1]

/-- The text of a place leads to it. -/
theorem leads_text (h : p.Proper) : Leads p.text p := by
  unfold Place.text
  rcases p with ⟨rooted, ups, names⟩
  cases rooted with
  | true =>
      obtain rfl : ups = 0 := h.ups rfl
      refine .absolute ?_
      by_cases hne : names = []
      · subst hne
        exact .last List.not_mem_nil
      · have hwalk := walk_intercalate hne (fun n hn => (h.names n hn).no_slash) .root
        rwa [foldl_names h.names] at hwalk
  | false =>
      rw [if_neg Bool.false_ne_true]
      have hsteps : (Place.steps ⟨false, ups, names⟩).foldl Place.enter .here
          = ⟨false, ups, names⟩ := by
        rw [Place.steps, List.foldl_append, Place.here, foldl_ups, foldl_names h.names,
          Nat.zero_add, List.nil_append]
      by_cases hne : Place.steps ⟨false, ups, names⟩ = []
      · rw [if_pos hne]
        rw [hne] at hsteps
        rw [← hsteps]
        have hdot : slash ∉ ("." : Text) := by decide
        exact leads_of_name hdot
      · rw [if_neg hne]
        have hwalk := walk_intercalate hne (fun n hn => (h.step_nonempty n hn).2) .here
        rw [hsteps] at hwalk
        refine .relative (fun hhead => ?_) hwalk
        -- The first step is not empty and has no slash.
        rcases hfirst : Place.steps ⟨false, ups, names⟩ with _ | ⟨n, rest⟩
        · exact hne hfirst
        · have hn := h.step_nonempty n (hfirst ▸ List.mem_cons_self)
          rw [hfirst, head?_intercalate hn.1] at hhead
          exact hn.2 (List.mem_of_mem_head? hhead)

theorem filter_nonempty_cons (n : Text) (names : List Text) :
    (n :: names).filter (· ≠ [])
      = if n = [] then names.filter (· ≠ []) else n :: names.filter (· ≠ []) := by
  simp only [List.filter_cons, ne_eq, decide_not, Bool.not_eq_true', decide_eq_false_iff_not,
    ite_not]

theorem intercalate_glue (path name : Text) (names : List Text) :
    [slash].intercalate (path :: name :: names)
      = [slash].intercalate ((path ++ slash :: name) :: names) := by
  cases names with
  | nil =>
      rw [List.intercalate_cons_cons, List.intercalate_singleton, List.intercalate_singleton,
        List.append_assoc]
      rfl
  | cons n rest =>
      simp only [List.intercalate_cons_cons, List.append_assoc, List.cons_append, List.nil_append]

/-- Names that are put behind a path lead on from its place. -/
theorem leads_join (h : Leads path place) (hnames : ∀ n ∈ names, slash ∉ n) :
    Leads ([slash].intercalate ((path :: names).filter (· ≠ [])))
      (names.foldl Place.enter place) := by
  induction names generalizing path place with
  | nil =>
      rw [filter_nonempty_cons]
      split
      · next hpath =>
        subst hpath
        exact h
      · rw [List.filter_nil, List.intercalate_singleton]
        exact h
  | cons n rest ih =>
      have hn := hnames n List.mem_cons_self
      have hrest := fun m hm => hnames m (List.mem_cons_of_mem n hm)
      by_cases hempty : n = []
      · subst hempty
        have hsame := ih h hrest
        rw [filter_nonempty_cons] at hsame ⊢
        rwa [filter_nonempty_cons, if_pos rfl]
      by_cases hpath : path = []
      · subst hpath
        rw [filter_nonempty_cons, if_pos rfl, place_of_leads_nil h]
        exact ih (leads_of_name hn) hrest
      · have hmore := ih (h.append hpath hn) hrest
        rw [filter_nonempty_cons, if_neg (List.append_ne_nil_of_left_ne_nil hpath _)] at hmore
        rwa [filter_nonempty_cons, if_neg hpath, filter_nonempty_cons, if_neg hempty,
          intercalate_glue]

theorem getLast?_intercalate (hname : name ≠ []) (names : List Text) :
    ([slash].intercalate (names ++ [name])).getLast? = name.getLast? := by
  by_cases hnames : names = []
  · rw [hnames, List.nil_append, List.intercalate_singleton]
  · rw [intercalate_concat hnames, List.getLast?_append]
    rcases List.eq_nil_or_concat name with h | ⟨before, u, h⟩
    · exact absurd h hname
    · rw [h, List.concat_eq_append, List.getLast?_concat, Option.some_or]

/-- A path that is put together from a directory and names in it has the text of
    the place that they lead to. -/
theorem join_of_leads (h : Leads path place) (names : List Text) (hnames : ∀ n ∈ names, slash ∉ n)
    (hname : IsName name) :
    join (path :: names ++ [name]) = ((names.foldl Place.enter place).enter name).text := by
  have hall : ∀ n ∈ names ++ [name], slash ∉ n :=
    List.forall_mem_append.mpr ⟨hnames, List.forall_mem_singleton.mpr hname.no_slash⟩
  have hleads := leads_join h hall
  rw [List.foldl_append] at hleads
  refine normalize_of_leads hleads fun hend => hname.no_slash ?_
  rw [Text.join, List.filter_append, filter_nonempty_cons name [], if_neg hname.nonempty,
    List.filter_nil, getLast?_intercalate hname.nonempty] at hend
  exact List.mem_of_getLast? hend

theorem steps_enter (p : Place) (hname : IsName name) :
    (p.enter name).steps = p.steps ++ [name] := by
  have henter : p.enter name = { p with names := p.names ++ [name] } :=
    foldl_names (List.forall_mem_singleton.mpr hname) p
  rw [henter, Place.steps, Place.steps, List.append_assoc]

/-- The text of a place below another one, which is not just the root or where
    one is. -/
theorem text_enter (hp : p.Proper) (hsteps : p.steps ≠ []) (hname : IsName name) :
    (p.enter name).text = p.text ++ slash :: name := by
  have henter : p.enter name = { p with names := p.names ++ [name] } :=
    foldl_names (List.forall_mem_singleton.mpr hname) p
  have hmore := steps_enter p hname
  rw [henter] at hmore
  rw [henter, Place.text, Place.text, hmore]
  cases hrooted : p.rooted with
  | true =>
      have hnames : p.names ≠ [] := Place.steps_of_rooted hp hrooted ▸ hsteps
      simp only [if_true, intercalate_concat hnames, List.cons_append, List.append_assoc,
        List.nil_append]
  | false =>
      simp only [Bool.false_eq_true, if_false, if_neg hsteps,
        if_neg (List.concat_ne_nil name p.steps), intercalate_concat hsteps, List.append_assoc,
        List.cons_append, List.nil_append]

end Places

end Path

end NodeWatch
