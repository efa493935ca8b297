import DesiredState.Action
import DesiredState.Store.Error

/-!
# The store

A store holds deployments by UUID. A deployment has attributes and resources; a resource has an
id that no other resource of the store ever had, a name that no other resource of its deployment
has, a type, and attributes of its own. The value of an attribute is kept as JSON text. Resources
stand in the order of their ids, which is the order of their declaration.
-/

namespace DesiredState

inductive Scope where
  | deployment (uuid : String)
  | resource (id : Int)
  deriving DecidableEq

def Scope.text : Scope → String
  | .deployment uuid => "deployment " ++ uuid
  | .resource id => "resource #" ++ String.ofList (Json.intChars id)

structure StoredResource where
  id : Int
  name : String
  resourceType : String
  attributes : KeyMap String
  deriving DecidableEq

structure StoredDeployment where
  attributes : KeyMap String
  resources : List StoredResource
  deriving DecidableEq

structure Store where
  deployments : KeyMap StoredDeployment
  /-- The id given last, never to be given again. -/
  lastId : Int
  deriving DecidableEq

structure DeploymentRecord where
  uuid : String
  name : Option String
  resourceCount : Nat
  deriving DecidableEq

structure ResourceRecord where
  id : Int
  deployment : String
  name : String
  resourceType : String
  deriving DecidableEq

def ResourceRecord.scope (r : ResourceRecord) : Scope := .resource r.id

def StoredResource.record (r : StoredResource) (deployment : String) : ResourceRecord :=
  ⟨r.id, deployment, r.name, r.resourceType⟩

def StoredDeployment.changeResource (d : StoredDeployment) (id : Int)
    (f : StoredResource → StoredResource) : StoredDeployment :=
  { d with resources := d.resources.map fun r => if r.id = id then f r else r }

namespace Store

def empty : Store := ⟨.empty, 0⟩

instance : Inhabited Store := ⟨empty⟩

def hasDeployment (s : Store) (uuid : String) : Bool := s.deployments.contains uuid

def allResources (s : Store) : List StoredResource :=
  s.deployments.values.flatMap StoredDeployment.resources

def resourceById? (s : Store) (id : Int) : Option StoredResource :=
  s.allResources.find? fun r => r.id = id

def attributesOf? (s : Store) : Scope → Option (KeyMap String)
  | .deployment uuid => (s.deployments.find? uuid).map StoredDeployment.attributes
  | .resource id => (s.resourceById? id).map StoredResource.attributes

/-- The attributes of an owner; one that does not exist has none. -/
def attributesOf (s : Store) (scope : Scope) : KeyMap String :=
  (s.attributesOf? scope).getD .empty

def textOf? (s : Store) (scope : Scope) (key : String) : Option String :=
  (s.attributesOf scope).find? key

/-- The store with the attributes of an owner changed; nothing if the owner does not exist. -/
def changeAttributes? (s : Store) (scope : Scope) (f : KeyMap String → KeyMap String) :
    Option Store :=
  match scope with
  | .deployment uuid =>
    (s.deployments.find? uuid).map fun d =>
      { s with deployments := s.deployments.insert uuid { d with attributes := f d.attributes } }
  | .resource id =>
    if (s.resourceById? id).isSome then
      some { s with deployments := s.deployments.map fun d =>
        d.changeResource id fun r => { r with attributes := f r.attributes } }
    else none

def decodeText (text : String) : Except StoreError Json :=
  (Json.decode text).mapError .invalidValue

end Store

end DesiredState
