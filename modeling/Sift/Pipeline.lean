import Sift.Url.Canonical
import Sift.Unicode.Folding
import Sift.Repository.Metadata

/-!
# Build pipelines

A pipeline tells about the commit and the request it builds through variables of the environment.
-/

namespace Sift

/-- Variables by name. -/
abbrev Environment := List (String × String)

/-- The value of a variable; empty if it is not set. -/
def Environment.get (environment : Environment) (name : String) : String :=
  (environment.lookup name).getD ""

namespace Pipeline

/-- Providers of pipelines. -/
inductive Provider where
  | github
  | gitlab
  | bitbucket
  deriving DecidableEq, Repr

/-- The name of a provider. -/
def Provider.name : Provider → String
  | github => "github"
  | gitlab => "gitlab"
  | bitbucket => "bitbucket"

/-- What a pipeline says about its job. -/
structure Job where
  provider : Provider
  /-- The commit the job runs on. -/
  commit : String
  /-- The branch or tag. -/
  reference : String
  /-- Where the repository is on the web. -/
  url : String
  /-- The branch a request is merged into. -/
  target : String
  /-- Where a request branched off, if the provider tells. -/
  base : String
  deriving DecidableEq, Repr

/-- Why there is nothing to compare. -/
inductive Fault where
  | notDetected
  | noRange (provider : Provider)
  deriving DecidableEq, Repr

/-- A fault in words. -/
def Fault.message : Fault → String
  | notDetected => "no supported CI environment detected"
  | noRange provider =>
    "the CI job does not build a pull or merge request (" ++ provider.name ++ ")"

/-- The provider whose variables are set. -/
def detect (env : Environment) : Option Provider :=
  if env.get "GITHUB_ACTIONS" = "true" || env.get "GITHUB_SHA" ≠ "" then some .github
  else if Unicode.equalFold (env.get "GITLAB_CI") "true" || env.get "CI_PROJECT_PATH" ≠ "" then
    some .gitlab
  else if env.get "BITBUCKET_BUILD_NUMBER" ≠ "" || env.get "BITBUCKET_REPO_SLUG" ≠ "" then
    some .bitbucket
  else none

/-- The first string unless it is empty. -/
def orElse (first second : String) : String := if first = "" then second else first

/-- What the pipeline says about its job. -/
def job (env : Environment) : Except Fault Job :=
  match detect env with
  | none => .error .notDetected
  | some .github =>
    let server := env.get "GITHUB_SERVER_URL"
    let repository := env.get "GITHUB_REPOSITORY"
    .ok {
      provider := .github
      commit := env.get "GITHUB_SHA"
      reference := orElse (env.get "GITHUB_HEAD_REF") (env.get "GITHUB_REF_NAME")
      url := if server = "" || repository = "" then ""
        else Text.dropTail server "/" ++ "/" ++ repository
      target := env.get "GITHUB_BASE_REF"
      base := "" }
  | some .gitlab =>
    .ok {
      provider := .gitlab
      commit := env.get "CI_COMMIT_SHA"
      reference := orElse (env.get "CI_COMMIT_TAG") (env.get "CI_COMMIT_REF_NAME")
      url := env.get "CI_PROJECT_URL"
      target := env.get "CI_MERGE_REQUEST_TARGET_BRANCH_NAME"
      base := env.get "CI_MERGE_REQUEST_DIFF_BASE_SHA" }
  | some .bitbucket =>
    .ok {
      provider := .bitbucket
      commit := env.get "BITBUCKET_COMMIT"
      reference := orElse (env.get "BITBUCKET_TAG") (env.get "BITBUCKET_BRANCH")
      url := (Url.canonical? (env.get "BITBUCKET_GIT_HTTP_ORIGIN")).getD ""
      target := env.get "BITBUCKET_PR_DESTINATION_BRANCH"
      base := "" }

/-- The revisions between which a request's changes lie. -/
def Job.range (job : Job) : Except Fault (String × String) :=
  let head := orElse job.commit "HEAD"
  if job.base ≠ "" then .ok (job.base, head)
  else if job.target ≠ "" then .ok ("origin/" ++ job.target, head)
  else .error (.noRange job.provider)

/-- Fills in what is not known about a repository. -/
def Job.enrich (job : Job) (info : RepositoryInfo) : RepositoryInfo :=
  let fill (known : Option String) (value : String) :=
    if known.isNone && value ≠ "" then some value else known
  { info with
    commit := fill info.commit job.commit
    branch := fill info.branch job.reference
    url := if info.url.isNone && job.url ≠ "" then some (Text.dropTail job.url ".git") else info.url }

end Pipeline

end Sift
