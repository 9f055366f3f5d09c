import ScrapeRelay.SortedMap

/-!
# Allow lists

Which metric names each scrape endpoint may forward. An endpoint without an
entry forwards everything, one with an empty list forwards nothing. An endpoint
is a target address or a job name, and the address counts first.
-/

namespace ScrapeRelay

/-- The names allowed for each endpoint that has an entry. -/
structure AllowList where
  names : SortedMap (List String)
deriving DecidableEq, Inhabited

namespace AllowList

def unrestricted : AllowList := ⟨.empty⟩

def isEmpty (list : AllowList) : Bool := list.names.isEmpty

def restricts (list : AllowList) (endpoint : String) : Bool := list.names.contains endpoint

def allows (list : AllowList) (endpoint name : String) : Bool :=
  match list.names.get? endpoint with
  | some allowed => allowed.contains name
  | none => true

/-- Whether a metric name passes for a target: by the entry of its address if
there is one, else by that of its job. -/
def admits (list : AllowList) (job address name : String) : Bool :=
  if list.restricts address then list.allows address name else list.allows job name

end AllowList

end ScrapeRelay
