import WebhookRelay.Core.Models
import WebhookRelay.Transform.Engine

/-!
# Route filters

`app/transform/filter.py`.
-/

namespace WebhookRelay.Transform

/-- `context.setdefault(key, value)`. -/
def setDefault (context : List (String × Json)) (key : String) (value : Json) :
    List (String × Json) :=
  if (Json.get? context key).isSome then context else context ++ [(key, value)]

def headersJson (headers : Option Headers) : Json :=
  .obj ((headers.getD []).map (fun h => (h.1, .str h.2)))

/-- `build_filter_context`. -/
def buildFilterContext (body : Json) (headers : Option Headers) : List (String × Json) :=
  let context := [("body", if body.truthy then body else .obj []), ("headers", headersJson headers)]
  match body with
  | .obj fields =>
      fields.foldl (fun context field =>
        if field.1 = "body" ∨ field.1 = "headers" then context
        else setDefault context field.1 field.2) context
  | _ => context

/-- `route_matches_event`; every error of the expression is a mismatch. -/
def routeMatchesEvent (rt : Runtime) (filterExpression : Option String) (body : Json)
    (headers : Option Headers) : Bool :=
  match filterExpression with
  | none => true
  | some expression =>
      if strip expression.toList = [] then true
      else
        match rt.search expression (.obj (buildFilterContext body headers)) with
        | .ok result => result.truthy
        | .error _ => false

end WebhookRelay.Transform
