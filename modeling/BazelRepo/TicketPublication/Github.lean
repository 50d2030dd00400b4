import BazelRepo.Library.Program
import BazelRepo.TicketPublication.Plan

namespace TicketPublication

open Library

structure Issue where
  number : IssueNumber
  id : IssueId
  nodeId : NodeId
  title : String
  body : Option String
  repositoryUrl : String
  labels : Option (List String)
  pullRequest : Bool
  deriving DecidableEq

def homeRepositoryUrl : String := "https://api.github.com/repos/LowkeyLab/bazel-repo"

def Issue.hasMarker (issue : Issue) (marker : String) : Bool := issue.body.any fun body => containsText body marker

def Issue.mapping (issue : Issue) : IssueMapping := ⟨issue.number, issue.id, issue.nodeId⟩

def Issue.checkRepository (issue : Issue) : Except Failure Unit :=
  ensure (issue.repositoryUrl == homeRepositoryUrl && !issue.pullRequest) .conflict

def Issue.checkContent (issue : Issue) (title body : String) : Except Failure Unit := do
  issue.checkRepository
  ensure (issue.title == title && issue.body == some body) .conflict

def Issue.labelNames (issue : Issue) : Except Failure (List String) :=
  context issue.labels "incomplete issue labels"

structure Relationship where
  repositoryUrl : String
  mapping : IssueMapping
  deriving DecidableEq

def Relationship.matchesMapping (relationship : Relationship) (expected : IssueMapping) : Except Failure Bool :=
  if relationship.mapping.id = expected.id ∨ relationship.mapping.nodeId = expected.nodeId ∨
      (relationship.repositoryUrl = homeRepositoryUrl ∧ relationship.mapping.number = expected.number) then do
    ensure (relationship.repositoryUrl == homeRepositoryUrl && relationship.mapping == expected) .conflict
    .ok true
  else .ok false

inductive Remote where
  | readIssue (number : IssueNumber)
  | enumerateIssues
  | readRelationships (number : IssueNumber) (relation : String)
  | readParent (id : NodeId)
  | addParent (parent : IssueNumber) (child : IssueId)
  | addBlocker (issue : IssueNumber) (blocker : IssueId)
  | addLabels (number : IssueNumber) (labels : List String)

inductive Listed where
  | pullRequest
  | malformed
  | issue (issue : Issue)

structure ParentNode where
  id : NodeId
  parent : Option (Option NodeId)

structure ParentAnswer where
  errors : Bool
  node : Option ParentNode

/-- What a request comes back with; nothing where it failed, was lost or made no sense. -/
abbrev Remote.Answer : Remote → Type
  | .readIssue _ => Option Issue
  | .enumerateIssues => Option (List (Option (List Listed)))
  | .readRelationships .. => Option (List (Option (List (Option Issue))))
  | .readParent _ => Option ParentAnswer
  | .addParent .. | .addBlocker .. | .addLabels .. => Option Unit

abbrev Reading (α : Type) := ExceptT Failure (Program Remote Remote.Answer) α

namespace Client

def requestFailed : String := "gh api request failed"

def readIssue (number : IssueNumber) : Reading (Option Issue) := ExceptT.lift (Program.perform (Remote.readIssue number))

def read (number : IssueNumber) : Reading Issue := do
  let issue ← context (← readIssue number) requestFailed
  issue.checkRepository
  ensure (issue.number == number) .conflict
  return issue

def listed (entry : Listed) : Except Failure (Option Issue) :=
  match entry with
  | .pullRequest => .ok none
  | .malformed => .error (.other "incomplete enumerated issue")
  | .issue issue =>
    -- An issue that is a pull request carries that member, so it was skipped.
    if issue.pullRequest then .ok none
    else do
      issue.checkRepository
      .ok (some issue)

def listedPage (page : Option (List Listed)) : Except Failure (List Issue) := do
  let entries ← context page "incomplete issue enumeration page"
  let issues ← entries.mapM listed
  .ok (issues.filterMap id)

def enumerateIssues : Reading (Option (List (Option (List Listed)))) :=
  ExceptT.lift (Program.perform Remote.enumerateIssues)

def enumerate : Reading (List Issue) := do
  let pages ← context (← enumerateIssues) "issue enumeration did not return pages"
  ensure (!pages.isEmpty) (.other "issue enumeration returned no pages")
  let issues ← (pages.mapM listedPage : Except Failure (List (List Issue)))
  return issues.flatten

def find (marker : String) : Reading (List Issue) := do
  return (← enumerate).filter fun issue => issue.hasMarker marker

def repositoryPath (url : String) : Except Failure Unit := do
  ensure ("https://api.github.com/repos/".toList.isPrefixOf url.toList) (.other "invalid related repository URL")
  let parts := (String.ofList (url.toList.drop 29)).splitOn "/"
  ensure (parts.length == 2 && parts.all fun part => !part.isEmpty) (.other "invalid related repository URL")

def sameRelationship (a b : Relationship) : Bool :=
  (a.repositoryUrl == b.repositoryUrl && a.mapping.number == b.mapping.number) || a.mapping.id == b.mapping.id ||
    a.mapping.nodeId == b.mapping.nodeId

def relationship (known : List Relationship) (entry : Option Issue) : Except Failure (List Relationship) := do
  let issue ← context entry "incomplete related issue"
  ensure (!issue.pullRequest) .conflict
  repositoryPath issue.repositoryUrl
  let new : Relationship := ⟨issue.repositoryUrl, issue.mapping⟩
  ensure (!known.any fun other => sameRelationship other new) (.other "duplicate relationship identity")
  .ok (known ++ [new])

def relationshipPage (known : List Relationship) (page : Option (List (Option Issue))) :
    Except Failure (List Relationship) := do
  let entries ← context page "incomplete relationship page"
  entries.foldlM relationship known

def readRelationships (number : IssueNumber) (relation : String) :
    Reading (Option (List (Option (List (Option Issue))))) :=
  ExceptT.lift (Program.perform (Remote.readRelationships number relation))

def relationships (number : IssueNumber) (relation : String) : Reading (List Relationship) := do
  let pages ← context (← readRelationships number relation) "relationship read did not return pages"
  ensure (!pages.isEmpty) (.other "relationship read returned no pages")
  (pages.foldlM relationshipPage [] : Except Failure (List Relationship))

def readParent (id : NodeId) : Reading (Option ParentAnswer) := ExceptT.lift (Program.perform (Remote.readParent id))

def parent (mapping : IssueMapping) : Reading (Option NodeId) := do
  let response ← context (← readParent mapping.nodeId) requestFailed
  ensure (!response.errors) (.other "parent query returned errors")
  let node ← context response.node "parent query has no node"
  let parent ← context node.parent "incomplete parent query"
  ensure (node.id == mapping.nodeId) .conflict
  return parent

def requestParent (parent : IssueNumber) (child : IssueId) : Reading (Option Unit) :=
  ExceptT.lift (Program.perform (Remote.addParent parent child))

def addChild (parent : IssueNumber) (child : IssueMapping) : Reading Unit := do
  context (← requestParent parent child.id) requestFailed

def requestBlocker (issue : IssueNumber) (blocker : IssueId) : Reading (Option Unit) :=
  ExceptT.lift (Program.perform (Remote.addBlocker issue blocker))

def addBlocker (issue : IssueNumber) (blocker : IssueMapping) : Reading Unit := do
  context (← requestBlocker issue blocker.id) requestFailed

def requestLabels (number : IssueNumber) (labels : List String) : Reading (Option Unit) :=
  ExceptT.lift (Program.perform (Remote.addLabels number labels))

def addLabels (number : IssueNumber) (labels : List String) : Reading Unit := do
  context (← requestLabels number labels) requestFailed

end Client

end TicketPublication
