import CodeOutline.Proofs.Http.Url
import CodeOutline.Repository.Client

/-! The requests of a repository's client: one for the tree and one for each file. -/

namespace CodeOutline

namespace Http

def Outcome.response? : Outcome → Option Response
  | .answered response => some response
  | _ => none

lemma Outcome.response?_eq_some_iff {outcome : Outcome} {response : Response} :
    outcome.response? = some response ↔ outcome = .answered response := by
  cases outcome <;> simp [response?]

variable {network : Network} {past : List Exchange} {method : Method} {address : String}
  {headers : List (String × String)} {body : Option Json}

/-- A request and what becomes of it. -/
def Network.exchange (network : Network) (past : List Exchange) (r : Request) : Exchange := ⟨r, network past r⟩

lemma request_eq_of_none (h : Request.make? method address headers body = none) :
    request method address headers body network past = (none, past) := by
  rw [request, h]
  rfl

lemma request_eq_of_some {r : Request} (h : Request.make? method address headers body = some r) :
    request method address headers body network past =
      ((network past r).response?, past ++ [network.exchange past r]) := by
  have hsend : Online.send r network past = (network past r, past ++ [network.exchange past r]) := rfl
  rw [request, h]
  change (Online.send r >>= _) network past = _
  rw [Online.bind_of_eq hsend]
  cases network past r <;> rfl

lemma Request.method_of_make? {r : Request} (h : make? method address headers body = some r) : r.method = method := by
  obtain ⟨url, _, hr⟩ := Option.bind_eq_some_iff.mp h
  split at hr
  · exact (Option.some.inj hr) ▸ rfl
  · cases hr

lemma Request.make?_eq_map (h : (headers.all fun header => isHeaderValue header.2) = true) :
    make? method address headers body = (Url.parse? address).map (⟨method, ·, headers, body⟩) := by
  rw [make?, h]
  cases Url.parse? address <;> rfl

lemma Request.isSome_make? : (make? method address headers body).isSome =
    ((Url.parse? address).isSome && headers.all fun h => isHeaderValue h.2) := by
  rw [make?]
  cases Url.parse? address with
  | none => rfl
  | some url =>
    simp only [Option.bind_eq_bind, Option.bind_some, Option.isSome_some, Bool.true_and]
    split
    · rename_i hall
      rw [hall]
      rfl
    · rename_i hall
      rw [Bool.eq_false_iff.mpr hall]
      rfl

end Http

namespace Repository.Client

variable (c : Client) (r : Reference) (path branch : String)

def treeRequest? : Option Http.Request := Http.Request.make? .get (c.treeUrl r branch) c.headers none

def fileRequest? : Option Http.Request := Http.Request.make? .get (c.contentsUrl r path branch) c.headers none

/-- Where the tree can be asked for, every file can. -/
lemma isSome_fileRequest? : (c.fileRequest? r path branch).isSome = (c.treeRequest? r branch).isSome := by
  have hplain : ("repos".toList.all fun c => !Http.Url.isLineChar c && !Http.Url.isSlash c) = true := by decide
  have hsegment : Http.Url.IsSegment "repos".toList := ⟨by decide, by simpa using hplain⟩
  have htree : c.treeUrl r branch = c.apiUrl ++ "/" ++ "repos" ++ "/" ++
      (r.owner ++ "/" ++ r.name ++ "/git/trees/" ++ branch ++ "?recursive=1") := by
    simp [treeUrl, base, String.append_assoc]
  have hfile : c.contentsUrl r path branch = c.apiUrl ++ "/" ++ "repos" ++ "/" ++
      (r.owner ++ "/" ++ r.name ++ "/contents/" ++ path ++ "?ref=" ++ branch) := by
    simp [contentsUrl, base, String.append_assoc]
  rw [fileRequest?, treeRequest?, Http.Request.isSome_make?, Http.Request.isSome_make?, htree, hfile,
    Http.Url.isSome_parse?_append hsegment]

variable {c r path branch} {network : Http.Network} {past : List Http.Exchange}

lemma getJson_eq_of_none {url : String} (h : Http.Request.make? .get url c.headers none = none) :
    c.getJson url network past = (.error .network, past) := by
  rw [getJson, Http.Online.bind_of_eq (Http.request_eq_of_none h)]
  rfl

lemma getJson_eq_of_some {url : String} {request : Http.Request}
    (h : Http.Request.make? .get url c.headers none = some request) :
    c.getJson url network past =
      (readReply (network past request).response?, past ++ [network.exchange past request]) := by
  rw [getJson, Http.Online.bind_of_eq (Http.request_eq_of_some h)]
  rfl

lemma fetchTree_eq_of_none (h : c.treeRequest? r branch = none) :
    c.fetchTree r branch network past = (.error .network, past) := by
  rw [fetchTree, Http.Online.bind_of_eq (getJson_eq_of_none h)]
  rfl

lemma fetchTree_eq_of_some {request : Http.Request} (h : c.treeRequest? r branch = some request) :
    c.fetchTree r branch network past =
      (readTree (readReply (network past request).response?), past ++ [network.exchange past request]) := by
  rw [fetchTree, Http.Online.bind_of_eq (getJson_eq_of_some h)]
  rfl

def fileText (path : String) (outcome : Http.Outcome) : Except Failure String :=
  readContents path (readReply outcome.response?)

lemma fetchFile_eq_of_some {request : Http.Request} (h : c.fileRequest? r path branch = some request) :
    c.fetchFile r path branch network past =
      (fileText path (network past request), past ++ [network.exchange past request]) := by
  rw [fetchFile, Http.Online.bind_of_eq (getJson_eq_of_some h)]
  rfl

end Repository.Client

end CodeOutline
