import WebhookRelay.Transform.Filter
import WebhookRelay.Transform.Validated

/-!
# What a filter selects

JMESPath counts null, false and what is empty as false, and every number as
true. `route_matches_event` asks Python instead, twice: `bool(result)` takes a
zero for false, and `body or {}` takes null, false, zero and the empty text and
list for an empty object before the expression sees them.
-/

namespace WebhookRelay.Transform

/-- True in the sense of JMESPath. -/
def selects : Json → Bool
  | .null => false
  | .bool b => b
  | .str s => s ≠ ""
  | .arr items => !items.isEmpty
  | .obj fields => !fields.isEmpty
  | .int _ | .float _ => true

def IsZero (value : Json) : Prop := value = .int 0 ∨ ∃ x, value = .float x ∧ x.isZero = true

/-- The two notions part at the zeros. -/
theorem truthy_eq_true_iff {value : Json} :
    value.truthy = true ↔ selects value = true ∧ ¬ IsZero value := by
  unfold IsZero
  cases value with
  | null => simp [Json.truthy, selects]
  | bool b => simp [Json.truthy, selects]
  | int n => simp [Json.truthy, selects]
  | float x => simp [Json.truthy, selects]
  | str s => simp [Json.truthy, selects]
  | arr items => simp [Json.truthy, selects]
  | obj fields => simp [Json.truthy, selects]

/-- The body and the headers, and the keys of the body beside them. -/
def filterContext (body : Json) (headers : Option Headers) : List (String × Json) :=
  let context := [("body", body), ("headers", headersJson headers)]
  match body with
  | .obj fields =>
      fields.foldl (fun context field =>
        if field.1 = "body" ∨ field.1 = "headers" then context
        else setDefault context field.1 field.2) context
  | _ => context

/-- A body that Python takes for false without its being an object. -/
def EmptyBody (body : Json) : Prop := body.truthy = false ∧ ∀ fields, body ≠ .obj fields

section

variable {rt : Runtime} {expression : String} {body : Json} {headers : Option Headers}

theorem buildFilterContext_of_not_emptyBody (h : ¬ EmptyBody body) :
    buildFilterContext body headers = filterContext body headers := by
  have hbody : (if body.truthy then body else .obj []) = body := by
    split
    · rfl
    · rename_i hfalsy
      by_contra hne
      apply h
      refine ⟨by simpa using hfalsy, ?_⟩
      rintro fields rfl
      cases fields with
      | nil => exact hne rfl
      | cons field rest => exact hfalsy rfl
  cases body <;> simp only [buildFilterContext, filterContext, hbody]

theorem buildFilterContext_of_emptyBody (h : EmptyBody body) :
    buildFilterContext body headers = filterContext (.obj []) headers := by
  unfold buildFilterContext
  rw [h.1]
  cases body with
  | obj fields => exact absurd rfl (h.2 fields)
  | _ => rfl

variable (rt expression) in
/-- The expression has a value in this context, one that JMESPath counts as true. -/
def Selected (context : List (String × Json)) : Prop :=
  ∃ value, rt.search expression (.obj context) = .ok value ∧ selects value = true

variable (rt expression) in
/-- Such a value, and not a zero. -/
def SelectedNonzero (context : List (String × Json)) : Prop :=
  ∃ value, rt.search expression (.obj context) = .ok value ∧ selects value = true ∧ ¬ IsZero value

theorem routeMatchesEvent_iff (hblank : strip expression.toList ≠ []) :
    routeMatchesEvent rt (some expression) body headers = true ↔
      SelectedNonzero rt expression (buildFilterContext body headers) := by
  unfold routeMatchesEvent SelectedNonzero
  dsimp only
  rw [if_neg hblank]
  cases rt.search expression (.obj (buildFilterContext body headers)) with
  | error e => simp
  | ok value =>
      simp only [Except.ok.injEq, exists_eq_left']
      exact truthy_eq_true_iff

variable (rt expression body headers) in
/-- The route matches when the value of the expression says so, and does not
when there is none. -/
def FilterMeans : Prop :=
  (∀ value, rt.search expression (.obj (filterContext body headers)) = .ok value →
    (routeMatchesEvent rt (some expression) body headers = true ↔ selects value = true)) ∧
  ∀ e, rt.search expression (.obj (filterContext body headers)) = .error e →
    routeMatchesEvent rt (some expression) body headers = false

theorem filterMeans_iff_selected : FilterMeans rt expression body headers ↔
    (routeMatchesEvent rt (some expression) body headers = true ↔
      Selected rt expression (filterContext body headers)) := by
  unfold FilterMeans Selected
  cases rt.search expression (.obj (filterContext body headers)) with
  | error e => simp
  | ok value => simp

/-- A value that is no zero, or for an empty body the same verdict on an empty object. -/
def KeepsMeaning (rt : Runtime) (expression : String) (body : Json) (headers : Option Headers) :
    Prop :=
  (¬ EmptyBody body →
    ∀ value, rt.search expression (.obj (filterContext body headers)) = .ok value →
      ¬ IsZero value) ∧
  (EmptyBody body →
    (Selected rt expression (filterContext body headers) ↔
      SelectedNonzero rt expression (filterContext (.obj []) headers)))

theorem selectedNonzero_iff_selected {context : List (String × Json)} :
    (SelectedNonzero rt expression context ↔ Selected rt expression context) ↔
      ∀ value, rt.search expression (.obj context) = .ok value → ¬ IsZero value := by
  unfold SelectedNonzero Selected
  have hzero : ∀ value, IsZero value → selects value = true := by
    rintro value (rfl | ⟨x, rfl, _⟩)
    · rfl
    · rfl
  constructor
  · intro h value hvalue hiszero
    obtain ⟨other, hother, _, hnot⟩ := h.mpr ⟨value, hvalue, hzero value hiszero⟩
    rw [hvalue, Except.ok.injEq] at hother
    exact hnot (hother ▸ hiszero)
  · intro h
    constructor
    · rintro ⟨value, hvalue, hselects, _⟩
      exact ⟨value, hvalue, hselects⟩
    · rintro ⟨value, hvalue, hselects⟩
      exact ⟨value, hvalue, hselects, h value hvalue⟩

variable (rt expression body headers) in
/-- A filter that compiles means what JMESPath says exactly when its value is
no zero and, for a body that Python takes for false, an empty object in its
place would get the same verdict. -/
theorem filterMeans_iff {compiles : String → Bool}
    (hcompile : ∀ text, strip text.toList = [] → compiles text = false)
    (hvalid : compiles expression = true) :
    FilterMeans rt expression body headers ↔ KeepsMeaning rt expression body headers := by
  have hblank : strip expression.toList ≠ [] := by
    intro hblank
    rw [hcompile expression hblank] at hvalid
    cases hvalid
  rw [filterMeans_iff_selected, routeMatchesEvent_iff hblank]
  unfold KeepsMeaning
  by_cases hempty : EmptyBody body
  · rw [buildFilterContext_of_emptyBody hempty]
    constructor
    · intro h
      exact ⟨fun hnot => absurd hempty hnot, fun _ => h.symm⟩
    · intro h
      exact (h.2 hempty).symm
  · rw [buildFilterContext_of_not_emptyBody hempty, selectedNonzero_iff_selected]
    constructor
    · intro h
      exact ⟨fun _ => h, fun hbody => absurd hbody hempty⟩
    · intro h
      exact h.1 hempty

end

/-! ## An amount of zero -/

/-- `jmespath.compile`, as far as `amount` goes. -/
def compilesAmount : String → Bool := fun text => text = "amount"

theorem not_compiles_blank : ∀ text, strip text.toList = [] → compilesAmount text = false := by
  intro text hblank
  apply decide_eq_false
  rintro rfl
  revert hblank
  decide

def amountBody (amount : ℤ) : Json := .obj [("amount", .int amount)]

/-- The filter `amount` drops an order of zero. -/
theorem zero_amount_dropped :
    ¬ ∀ (rt : Runtime) (compiles : String → Bool) (expression : String) (body : Json)
      (headers : Option Headers),
      (∀ text, strip text.toList = [] → compiles text = false) → compiles expression = true →
      FilterMeans rt expression body headers := by
  intro h
  have hmeans := h priceRuntime compilesAmount "amount" (amountBody 0) none not_compiles_blank
    (by decide)
  have hmatches := (hmeans.1 (.int 0) rfl).mpr rfl
  revert hmatches
  decide +kernel

theorem amount_kept : FilterMeans priceRuntime "amount" (amountBody 5) none := by
  apply (filterMeans_iff priceRuntime "amount" (amountBody 5) none not_compiles_blank
    (by decide)).mpr
  constructor
  · intro _ value hvalue
    have hfive : value = .int 5 := (Except.ok.inj hvalue).symm
    rw [hfive]
    rintro (hzero | ⟨x, hzero, _⟩)
    · rw [Json.int.injEq] at hzero
      omega
    · cases hzero
  · intro hempty
    exact absurd rfl (hempty.2 _)

end WebhookRelay.Transform
