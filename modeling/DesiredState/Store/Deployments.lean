import DesiredState.Store.Attributes

/-!
# Deployments and their resources

Creating, listing, finding and removing the records of deployments and resources.
-/

namespace DesiredState.Store

/-- The key under which a deployment's name is kept. -/
def nameKey : String := "name"

def createDeployment (uuid : String) : Action Store StoreError Unit := fun s =>
  if s.hasDeployment uuid then (.error (.deploymentExists uuid), s)
  else (.ok (), { s with deployments := s.deployments.insert uuid ⟨.empty, []⟩ })

def nameOf (d : StoredDeployment) : Except StoreError (Option String) :=
  match d.attributes.find? nameKey with
  | none => .ok none
  | some text => (decodeText text).map Json.string?

def recordOf (uuid : String) (d : StoredDeployment) : Except StoreError DeploymentRecord :=
  (nameOf d).map fun name => ⟨uuid, name, d.resources.length⟩

def deploymentRecords (s : Store) : Except StoreError (List DeploymentRecord) :=
  s.deployments.entries.mapM fun entry => recordOf entry.1 entry.2

def listDeployments : Action Store StoreError (List DeploymentRecord) :=
  Action.reading deploymentRecords

/-- The deployment with a UUID among records, or else the only one with a name. -/
def selectDeployment (records : List DeploymentRecord) (key : String) :
    Except StoreError DeploymentRecord :=
  match records.find? fun r => r.uuid = key with
  | some r => .ok r
  | none =>
    match records.filter fun r => r.name = some key with
    | [] => .error (.deploymentNotFound key)
    | [r] => .ok r
    | _ => .error (.ambiguousDeployment key)

/-- The deployment with a UUID, or else the only one with a name. -/
def findDeployment (key : String) : Action Store StoreError DeploymentRecord :=
  Action.reading fun s => (deploymentRecords s).bind fun records => selectDeployment records key

def purgeDeployment (uuid : String) : Action Store StoreError Unit := fun s =>
  if s.hasDeployment uuid then (.ok (), { s with deployments := s.deployments.erase uuid })
  else (.error (.deploymentNotFound uuid), s)

/-- The resources of a deployment; one that does not exist has none. -/
def resourcesOf (s : Store) (deployment : String) : List StoredResource :=
  ((s.deployments.find? deployment).map StoredDeployment.resources).getD []

def resourceNamed? (s : Store) (deployment name : String) : Option StoredResource :=
  (s.resourcesOf deployment).find? fun r => r.name = name

/-- All resources of a deployment, in the order of their declaration. -/
def listResources (deployment : String) : Action Store StoreError (List ResourceRecord) :=
  Action.view fun s => (s.resourcesOf deployment).map fun r => r.record deployment

def findResource (deployment name : String) : Action Store StoreError (Option ResourceRecord) :=
  Action.view fun s => (s.resourceNamed? deployment name).map fun r => r.record deployment

def insertResource (deployment name resourceType : String) :
    Action Store StoreError ResourceRecord := fun s =>
  match s.deployments.find? deployment with
  | none => (.error (.deploymentNotFound deployment), s)
  | some d =>
    let r : StoredResource := ⟨s.lastId + 1, name, resourceType, .empty⟩
    (.ok (r.record deployment),
      { deployments := s.deployments.insert deployment { d with resources := d.resources ++ [r] }
        lastId := s.lastId + 1 })

/-- The resource with a name, created if there is none; its type must be the requested one. -/
def declareResource (deployment name resourceType : String) :
    Action Store StoreError ResourceRecord := fun s =>
  match s.resourceNamed? deployment name with
  | some r =>
    if r.resourceType = resourceType then (.ok (r.record deployment), s)
    else (.error (.typeMismatch name r.resourceType resourceType), s)
  | none => insertResource deployment name resourceType s

def renameResource (deployment source target : String) : Action Store StoreError Unit := fun s =>
  if (s.resourceNamed? deployment target).isSome then
    (.error (.resourceExists deployment target), s)
  else
    match s.resourceNamed? deployment source, s.deployments.find? deployment with
    | some _, some d =>
      let resources := d.resources.map fun r =>
        if r.name = source then { r with name := target } else r
      (.ok (), { s with deployments :=
        s.deployments.insert deployment { d with resources := resources } })
    | _, _ => (.error (.resourceNotFound deployment source), s)

def purgeResource (id : Int) : Action Store StoreError Unit :=
  Action.update fun s => { s with deployments := s.deployments.map fun d =>
    { d with resources := d.resources.filter fun r => r.id ≠ id } }

end DesiredState.Store
