/-!
# Attributes that every resource has

These keys describe the resource itself, so they take no part in comparing a definition with
what is recorded.
-/

namespace DesiredState.State

/-- The lifecycle status, as its ordinal. -/
def statusKey : String := "state"

/-- The place at which a resource is displayed. -/
def indexKey : String := "index"

def obsoleteKey : String := "obsolete"

/-- The provider's name for the resource, from its creation on. -/
def resourceIdKey : String := "resourceId"

/-- When the resource was created, in seconds of Unix time. -/
def creationTimeKey : String := "creationTime"

def reservedKeys : List String :=
  [statusKey, indexKey, obsoleteKey, resourceIdKey, creationTimeKey]

end DesiredState.State
