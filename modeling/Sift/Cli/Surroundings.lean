import Sift.Cli
import Sift.Repository.Folder

/-!
# What a run may look at

The variables that the program knows, and the paths that the words on the command line, the
environment and the configuration mention. Nothing else outside the working directory is looked at.
-/

namespace Sift.Cli

/-- The variables that the program looks at. -/
def variableNames : List String :=
  ["HOME", Config.rulesPathVariable, "SKIM_LOG_LEVEL",
    "GITHUB_ACTIONS", "GITHUB_SHA", "GITHUB_SERVER_URL", "GITHUB_REPOSITORY", "GITHUB_HEAD_REF",
    "GITHUB_REF_NAME", "GITHUB_BASE_REF",
    "GITLAB_CI", "CI_PROJECT_PATH", "CI_COMMIT_SHA", "CI_COMMIT_TAG", "CI_COMMIT_REF_NAME",
    "CI_PROJECT_URL", "CI_MERGE_REQUEST_TARGET_BRANCH_NAME", "CI_MERGE_REQUEST_DIFF_BASE_SHA",
    "BITBUCKET_BUILD_NUMBER", "BITBUCKET_REPO_SLUG", "BITBUCKET_COMMIT", "BITBUCKET_TAG",
    "BITBUCKET_BRANCH", "BITBUCKET_GIT_HTTP_ORIGIN", "BITBUCKET_PR_DESTINATION_BRANCH"]

/-- The paths that words mention: the words themselves, and the values that are given to flags. -/
def mentionedPaths (env : Environment) (words : List String) : List String :=
  let values := words.filterMap fun word =>
    match Text.splitAt '=' word with
    | _ :: value :: rest => some ("=".intercalate (value :: rest))
    | _ => none
  (env.get Config.rulesPathVariable :: words ++ values).filter (· ≠ "")

/-- The directory of custom rules that the configuration names. -/
def configuredRules? (world : World) (words : List String) : Option String := do
  let (command, words) ← (findCommand words).toOption
  let arguments ← (readArguments command.allFlags words).toOption
  let config ← (configure world arguments).toOption
  if config.rules.customRulesPath = "" then none else some config.rules.customRulesPath

end Sift.Cli
