import NovaRtl.Evidence.Contracts

/-!
# Endpoints of clock-domain crossings

A crossing names its endpoints by structural names, the source map its objects by tool names and
aliases. Both the graph and the path clusters resolve an endpoint in this way.
-/

namespace NovaRtl.Evidence

/-- `text.split(":", maxsplit=1)[-1]` -/
def afterColon (text : String) : String :=
  if ':' ∈ text.toList then String.ofList (text.toList.dropWhile (· ≠ ':')).tail else text

/-- `text.split("[", maxsplit=1)[0]` -/
def beforeBracket (text : String) : String := String.ofList (text.toList.takeWhile (· ≠ '['))

/-- `text.rsplit("/", maxsplit=1)[-1]` -/
def lastSegment (text : String) : String :=
  String.ofList (text.toList.reverse.takeWhile (· ≠ '/')).reverse

/-- `_matches_structural_endpoint`, `matches_cdc_endpoint` -/
def matchesStructuralEndpoint (semanticName endpoint : String) : Bool :=
  let baseName := beforeBracket (afterColon semanticName)
  baseName = afterColon endpoint ||
    ((afterColon endpoint).toList ++ ['/']).isPrefixOf baseName.toList

/-- `_matches_endpoint_leaf` -/
def matchesEndpointLeaf (semanticName endpoint : String) : Bool :=
  lastSegment (beforeBracket (afterColon semanticName)) = lastSegment (afterColon endpoint)

def objectMatchesEndpoint (item : MappedObjectRecord) (endpoint : String) : Bool :=
  matchesStructuralEndpoint item.semanticName endpoint ||
    item.structuralAliases.any (matchesStructuralEndpoint · endpoint)

/-- `objects_for_endpoint`: the objects that match, and if there are none those of which an alias
ends in the endpoint's leaf. -/
def objectsForEndpoint (objects : List MappedObjectRecord) (endpoint : String) :
    List MappedObjectRecord :=
  let exact := objects.filter fun item => objectMatchesEndpoint item endpoint
  if exact ≠ [] then exact
  else objects.filter fun item =>
    item.structuralAliases.any (matchesEndpointLeaf · endpoint)

theorem mem_of_mem_objectsForEndpoint {objects : List MappedObjectRecord} {endpoint : String}
    {item : MappedObjectRecord} (h : item ∈ objectsForEndpoint objects endpoint) :
    item ∈ objects := by
  simp only [objectsForEndpoint] at h
  split at h
  · exact List.mem_of_mem_filter h
  · exact List.mem_of_mem_filter h

end NovaRtl.Evidence
