import DataLayer.Proofs.Code.Scopes

/- Claims one after the other on a scope that is changed in place and stays in use when a claim has
   failed. What the scope holds is what went through, so that a claim is refused because of one that
   went through before it and never because of one that was refused itself. -/
namespace DataLayer.Code.Scope

def claimInPlace (ident source : String) : EStateM Fault Scope Unit := do
  let s ← get
  match s.claimed.get? ident with
  | none => set { s with claimed := s.claimed.insert ident source }
  | some holder => if holder = source then pure () else throw (s.clash ident holder source)

def answer (s : Scope) (c : String × String) : Except Fault Unit :=
  match claimInPlace c.1 c.2 s with
  | .ok _ _ => .ok ()
  | .error f _ => .error f

def afterClaim (s : Scope) (c : String × String) : Scope :=
  match claimInPlace c.1 c.2 s with
  | .ok _ t => t
  | .error _ t => t

def afterClaims (s : Scope) (run : List (String × String)) : Scope := run.foldl afterClaim s

def answers (s : Scope) : List (String × String) → List (Except Fault Unit)
  | [] => []
  | c :: rest => s.answer c :: (s.afterClaim c).answers rest

/-- The claims of a run that go through. -/
def granted (s : Scope) : List (String × String) → List (String × String)
  | [] => []
  | c :: rest =>
      match s.answer c with
      | .ok _ => c :: (s.afterClaim c).granted rest
      | .error _ => (s.afterClaim c).granted rest

section Claim
variable {s : Scope} {c : String × String} {f : Fault}

theorem claimInPlace_eq (s : Scope) (ident source : String) :
    claimInPlace ident source s =
      match s.claim ident source with
      | .ok t => .ok () t
      | .error f => .error f s := by
  have opened : claimInPlace ident source s =
      (match s.claimed.get? ident with
        | none => set { s with claimed := s.claimed.insert ident source }
        | some holder => if holder = source then pure () else throw (s.clash ident holder source) :
        EStateM Fault Scope Unit) s := rfl
  rw [opened, claim]
  cases s.claimed.get? ident with
  | none => rfl
  | some holder => by_cases same : holder = source <;> simp only [same, if_true, if_false] <;> rfl

theorem claim_eq_ok_iff {t : Scope} :
    s.claim c.1 c.2 = .ok t ↔ s.answer c = .ok () ∧ s.afterClaim c = t := by
  rw [answer, afterClaim, claimInPlace_eq]
  cases s.claim c.1 c.2 <;> simp

theorem claim_eq_error_iff : s.claim c.1 c.2 = .error f ↔ s.answer c = .error f := by
  rw [answer, claimInPlace_eq]
  cases s.claim c.1 c.2 <;> simp

theorem afterClaim_of_refused (refused : s.answer c = .error f) : s.afterClaim c = s := by
  rw [afterClaim, claimInPlace_eq, claim_eq_error_iff.mpr refused]

theorem answer_eq_error_iff :
    s.answer c = .error f ↔
      ∃ holder, s.claimed.get? c.1 = some holder ∧ holder ≠ c.2 ∧ f = s.clash c.1 holder c.2 := by
  rw [← claim_eq_error_iff, claim]
  cases s.claimed.get? c.1 with
  | none => simp
  | some holder => by_cases same : holder = c.2 <;> simp [same, eq_comm]

theorem claim_of_held (held : s.claimed.get? c.1 = some c.2) : s.claim c.1 c.2 = .ok s := by
  simp [claim, held]

theorem label_afterClaim (s : Scope) (c : String × String) : (s.afterClaim c).label = s.label := by
  rw [afterClaim, claimInPlace_eq, claim]
  cases s.claimed.get? c.1 with
  | none => rfl
  | some holder => by_cases same : holder = c.2 <;> simp [same]

theorem held_afterClaim (went : s.answer c = .ok ()) {ident source : String} :
    (s.afterClaim c).claimed.get? ident = some source ↔
      s.claimed.get? ident = some source ∨ (ident, source) = c := by
  obtain ⟨key, owner⟩ := c
  have claimed : s.claim key owner = .ok (s.afterClaim (key, owner)) :=
    claim_eq_ok_iff.mpr ⟨went, rfl⟩
  rw [get?_of_claim claimed]
  by_cases here : ident = key
  · have alone : s.claimed.get? key = some source → source = owner :=
      claim_succeeds.mp ⟨_, claimed⟩ source
    subst here
    simpa [eq_comm] using alone
  · simp [here]

end Claim

section Run
variable {s : Scope}

theorem granted_cons_of_went {c : String × String} {rest : List (String × String)}
    (went : s.answer c = .ok ()) :
    s.granted (c :: rest) = c :: (s.afterClaim c).granted rest := by
  rw [granted, went]

theorem granted_cons_of_refused {c : String × String} {rest : List (String × String)} {f : Fault}
    (refused : s.answer c = .error f) : s.granted (c :: rest) = s.granted rest := by
  rw [granted, refused]
  exact congrArg (granted · rest) (afterClaim_of_refused refused)

theorem afterClaims_cons (s : Scope) (c : String × String) (rest : List (String × String)) :
    s.afterClaims (c :: rest) = (s.afterClaim c).afterClaims rest := rfl

theorem label_afterClaims (s : Scope) (run : List (String × String)) :
    (s.afterClaims run).label = s.label := by
  induction run generalizing s with
  | nil => rfl
  | cons c rest ih => rw [afterClaims_cons, ih, label_afterClaim]

theorem held_afterClaims (s : Scope) (run : List (String × String)) {ident source : String} :
    (s.afterClaims run).claimed.get? ident = some source ↔
      s.claimed.get? ident = some source ∨ (ident, source) ∈ s.granted run := by
  induction run generalizing s with
  | nil => simp [afterClaims, granted]
  | cons c rest ih =>
    rw [afterClaims_cons, ih]
    cases answered : s.answer c with
    | ok _ => rw [granted_cons_of_went answered, held_afterClaim answered, List.mem_cons, or_assoc]
    | error f => rw [granted_cons_of_refused answered, afterClaim_of_refused answered]

theorem afterClaims_granted (s : Scope) (run : List (String × String)) :
    s.afterClaims (s.granted run) = s.afterClaims run := by
  induction run generalizing s with
  | nil => rfl
  | cons c rest ih =>
    cases answered : s.answer c with
    | ok _ => rw [granted_cons_of_went answered, afterClaims_cons, ih, afterClaims_cons]
    | error f =>
      rw [granted_cons_of_refused answered, ih, afterClaims_cons, afterClaim_of_refused answered]

/-- A claim goes through in a run if it does so on the scope that the claims before it have left. -/
theorem mem_granted_iff (s : Scope) (run : List (String × String)) (c : String × String) :
    c ∈ s.granted run ↔
      ∃ before rest, run = before ++ c :: rest ∧ (s.afterClaims before).answer c = .ok () := by
  induction run generalizing s with
  | nil => simp [granted]
  | cons first rest ih =>
    have later : (∃ before behind, first :: rest = before ++ c :: behind ∧
          (s.afterClaims before).answer c = .ok ()) ↔
        (c = first ∧ s.answer first = .ok ()) ∨ c ∈ (s.afterClaim first).granted rest := by
      rw [ih]
      constructor
      · rintro ⟨before, behind, parted, went⟩
        rcases List.cons_eq_append_iff.mp parted with ⟨rfl, same⟩ | ⟨between, rfl, same⟩
        · cases same
          exact .inl ⟨rfl, went⟩
        · exact .inr ⟨between, behind, same, went⟩
      · rintro (⟨rfl, went⟩ | ⟨before, behind, parted, went⟩)
        · exact ⟨[], rest, rfl, went⟩
        · exact ⟨first :: before, behind, congrArg (first :: ·) parted, went⟩
    rw [later]
    cases answered : s.answer first with
    | ok _ => simp [granted_cons_of_went answered]
    | error f => simp [granted_cons_of_refused answered, afterClaim_of_refused answered]

theorem held_new {label : String} {run : List (String × String)} {ident source : String} :
    ((new label).afterClaims run).claimed.get? ident = some source ↔
      (ident, source) ∈ (new label).granted run := by
  rw [held_afterClaims, or_iff_right]
  simp [new, Table.empty, Table.get?]

end Run

/-- A new scope has seen a run of claims, of which these went through: what it holds by now, and how
    a claim on it turns out. -/
structure Settled (label : String) (run granted : List (String × String)) (s : Scope) : Prop where
  earlier : ∀ c, c ∈ granted ↔
    ∃ before rest, run = before ++ c :: rest ∧ ((new label).afterClaims before).answer c = .ok ()
  recorded : ∀ c, c ∈ s.claimed.entries ↔ c ∈ granted
  single : ∀ ident a b, (ident, a) ∈ s.claimed.entries → (ident, b) ∈ s.claimed.entries → a = b
  claims : ∀ c, (∀ t, s.claim c.1 c.2 = .ok t ↔ s.answer c = .ok () ∧ s.afterClaim c = t) ∧
    ∀ f, s.claim c.1 c.2 = .error f ↔ s.answer c = .error f
  refused : ∀ ident source f, s.answer (ident, source) = .error f ↔
    ∃ holder, (ident, holder) ∈ granted ∧ holder ≠ source ∧
      f = (new label).clash ident holder source
  unchanged : ∀ c f, s.answer c = .error f → s.afterClaim c = s
  repeated : ∀ c ∈ granted, s.answer c = .ok () ∧ s.afterClaim c = s
  leftOut : ∀ c f later, s.answer c = .error f → s.answers (c :: later) = .error f :: s.answers later
  allLeftOut : ∀ later, ((new label).afterClaims granted).answers later = s.answers later

theorem run_settled (label : String) (run : List (String × String)) :
    Settled label run ((new label).granted run) ((new label).afterClaims run) where
  earlier := mem_granted_iff _ run
  recorded c := by rw [← Table.get?_eq_some_iff, held_new]
  single ident a b first second := by
    rw [← Table.get?_eq_some_iff] at first second
    exact Option.some.inj (first.symm.trans second)
  claims _ := ⟨fun _ => claim_eq_ok_iff, fun _ => claim_eq_error_iff⟩
  refused ident source f := by
    have called := label_afterClaims (new label) run
    simp only [answer_eq_error_iff, held_new, clash, called]
  unchanged _ _ := afterClaim_of_refused
  repeated _ mem := claim_eq_ok_iff.mp (claim_of_held (held_new.mpr mem))
  leftOut c f later refused := by rw [answers, refused, afterClaim_of_refused refused]
  allLeftOut later := by rw [afterClaims_granted]

example : (new "model").answers
      [("http_log", "HttpLog"), ("http_log", "HTTPLog"), ("http_log", "HttpLog")] =
    [.ok (), .error (.clash "model: 'HttpLog' and 'HTTPLog' both generate 'http_log'"), .ok ()] := by
  decide +kernel

end DataLayer.Code.Scope
