import Sift.Url
import Sift.Path

/-!
# Remote repositories

A remote names a repository on a host: by a URL, or in the short form `user@host:path`. The kind of
host decides how paths and links are built.
-/

namespace Sift

/-- Kinds of repository hosts. -/
inductive Forge where
  | generic
  | github
  | gitlab
  | bitbucket
  deriving DecidableEq, Repr

namespace Forge

/-- The kind with a name. -/
def ofName? (name : String) : Option Forge :=
  match Text.normalize name with
  | "github" => some github
  | "gitlab" => some gitlab
  | "bitbucket" => some bitbucket
  | "generic" => some generic
  | _ => none

/-- The kind that a host's name suggests. -/
def ofHost (host : String) : Forge :=
  if Text.contains host "github" then github
  else if Text.contains host "gitlab" then gitlab
  else if Text.contains host "bitbucket" then bitbucket
  else generic

end Forge

/-- A repository on a host. -/
structure Remote where
  forge : Forge
  /-- The host without a port. -/
  host : String
  /-- What the repository belongs to, possibly several levels deep. -/
  owner : String
  repository : String
  /-- How the remote was written. -/
  raw : String
  scheme : String
  deriving DecidableEq, Repr

namespace Remote

/-- Why a remote cannot be read. -/
inductive Fault where
  | badUrl (url : String) (fault : Url.Fault)
  | invalidScheme (raw : String)
  | noRepository (raw : String)
  | invalidBitbucket (raw : String)
  deriving DecidableEq, Repr

/-- A fault in words. -/
def Fault.message : Fault → String
  | badUrl url fault => fault.message url
  | invalidScheme raw => "invalid scheme: " ++ raw
  | noRepository raw => "remote " ++ Text.quote raw ++ " does not name a repository"
  | invalidBitbucket raw => "invalid Bitbucket URL: " ++ raw

/-- Host and path of the short form, without a user. -/
def hostAndPath? (cs : List Char) : Option (List Char × List Char) :=
  let host := cs.takeWhile fun c => c ≠ ':' && c ≠ '/'
  match host, cs.drop host.length with
  | _ :: _, ':' :: path => if path.contains '\n' then none else some (host, path)
  | _, _ => none

/-- Host and path of the short form. What stands before the first `@` is a user if it is made of
word characters, dots and hyphens. -/
def shortForm? (cs : List Char) : Option (List Char × List Char) :=
  let isUserChar := fun c => Url.isAlnum c || c = '_' || c = '.' || c = '-'
  match cs.takeWhile isUserChar, cs.dropWhile isUserChar with
  | _ :: _, '@' :: rest => hostAndPath? rest <|> hostAndPath? cs
  | _, _ => hostAndPath? cs

/-- A remote as a URL. -/
def toUrl (raw : String) : String :=
  let trimmed := Text.trim raw
  let url :=
    if Text.contains trimmed "://" then trimmed
    else
      match shortForm? trimmed.toList with
      | some (host, path) => "ssh://" ++ String.ofList host ++ "/" ++ String.ofList path
      | none => trimmed
  Text.dropTail url ".git"

/-- The segments of a path that are not empty. -/
def segments (path : String) : List String := (Text.splitAt '/' path).filter (· ≠ "")

/-- Namespace and repository among the segments of a path on a Bitbucket host. -/
def bitbucketNames? : List String → Option (String × String)
  | [first, second] =>
    if first ≠ "projects" && first ≠ "users" && first ≠ "scm" then some (first, second) else none
  | ["scm", owner, name] => some (owner, name)
  | "projects" :: owner :: "repos" :: name :: _ => some (owner, name)
  | "users" :: owner :: "repos" :: name :: _ => some ("~" ++ owner, name)
  | _ => none

/-- Namespace and repository among the segments of a path on other hosts. -/
def plainNames? (segments : List String) : Option (String × String) :=
  match segments.reverse with
  | name :: parent :: parents => some (Path.join (parent :: parents).reverse, name)
  | _ => none

/-- The schemes that a remote may have. -/
def schemes : List String := ["http", "https", "ssh"]

/-- Reads a remote. The kind of host is found from its name if it is not given. -/
def parse (raw : String) (forge : Option Forge) : Except Fault Remote := do
  let text := toUrl raw
  match Url.parse text with
  | .error fault => throw (.badUrl text fault)
  | .ok url =>
    if !schemes.contains url.scheme then throw (.invalidScheme raw)
    let forge := forge.getD (Forge.ofHost url.host)
    let names := if forge = .bitbucket then bitbucketNames? (segments url.path)
      else plainNames? (segments url.path)
    match names with
    | none => throw (if forge = .bitbucket then .invalidBitbucket raw else .noRepository raw)
    | some (owner, repository) =>
      return { forge, host := url.host, owner, repository, raw, scheme := url.scheme }

/-- Why there is no link. -/
inductive LinkFault where
  | incomplete
  | missingRef
  | missingFile
  deriving DecidableEq, Repr

/-- A fault in words. -/
def LinkFault.message : LinkFault → String
  | incomplete => "remote has no host, namespace or repository"
  | missingRef => "ref is required"
  | missingFile => "file path is required"

/-- A file's path as links hold it: with slashes, and none at the front. -/
def linkPath (file : String) : String :=
  String.ofList ((file.toList.map fun c => if c = '\\' then '/' else c).dropWhile (· = '/'))

/-- How a namespace is spelled in links to a Bitbucket host. -/
def bitbucketOwner (owner : String) : String :=
  if Text.startsWith owner "~" then "users/" ++ Text.dropLead owner "~" else "projects/" ++ owner

/-- The link to a file. -/
def fileLink (remote : Remote) (ref file : String) : String :=
  let site := "https://" ++ remote.host ++ "/"
  match remote.forge with
  | .gitlab => site ++ remote.owner ++ "/" ++ remote.repository ++ "/-/blob/" ++ ref ++ "/" ++ file
  | .bitbucket =>
    site ++ bitbucketOwner remote.owner ++ "/repos/" ++ remote.repository ++ "/browse/" ++ file ++
      "?at=" ++ ref
  | _ => site ++ remote.owner ++ "/" ++ remote.repository ++ "/blob/" ++ ref ++ "/" ++ file

/-- The part of a link that points at lines: nothing without a first line, one line unless the last
is behind it. -/
def lineAnchor (forge : Forge) (first last : Int) : String :=
  let line := if forge = .bitbucket then "#" else "#L"
  let between := if forge = .gitlab || forge = .bitbucket then "-" else "-L"
  if first ≤ 0 then ""
  else if last ≤ first then line ++ toString first
  else line ++ toString first ++ between ++ toString last

/-- The link to lines of a file at a revision. -/
def permalink (remote : Remote) (ref file : String) (first last : Int) : Except LinkFault String :=
  let file := linkPath file
  if remote.host = "" || remote.owner = "" || remote.repository = "" then .error .incomplete
  else if ref = "" then .error .missingRef
  else if file = "" then .error .missingFile
  else .ok (remote.fileLink ref file ++ lineAnchor remote.forge first last)

end Remote

end Sift
