import PadlockCloud.Go.Text

/-!
# Requests

The parts of `http.Request` that the server reads. The body is a resource: it
can be read once, either by the handler (`ioutil.ReadAll`) or by
`PostFormValue`, which parses the form out of it. Reading a value therefore
also returns the request as it is afterwards.
-/

namespace PadlockCloud

/-- The request headers that the server looks at. -/
inductive Header where
  | accept
  | authorization
  | contentType
  | csrfToken
  | realIP
  | devicePlatform
  | clientPlatform
  | deviceUUID
  | deviceModel
  | deviceManufacturer
  | deviceOSVersion
  | deviceHostname
  | deviceAppVersion
  | clientAppVersion
  deriving DecidableEq

structure Request where
  method : GoString
  /-- `r.URL.Path` -/
  path : GoString := lit "/"
  /-- `r.URL.Query().Get` -/
  query : GoString → GoString := fun _ => []
  /-- `r.Header.Get` -/
  header : Header → GoString := fun _ => []
  /-- The value of the cookie `auth`. -/
  cookie : Option GoString := none
  host : GoString := []
  remoteAddr : GoString := []
  /-- What a read of `r.Body` still yields. -/
  body : GoString := []
  /-- Reading the body to its end fails, as when the client goes away. -/
  bodyFails : Bool := false
  /-- `r.PostForm`, once it has been parsed. -/
  postForm : Option (GoString → GoString) := none

/-- The part of `net/http` that turns a body into form values. -/
structure NetHttp where
  /-- The media type of a `Content-Type` is `application/x-www-form-urlencoded`. -/
  urlencoded : GoString → Bool
  /-- The media type of a `Content-Type` is `multipart/form-data`. -/
  multipart : GoString → Bool
  /-- The form value of a key in a body of a `Content-Type`. -/
  parseForm : GoString → GoString → GoString → GoString

def NetHttp.formType (net : NetHttp) (contentType : GoString) : Bool :=
  net.urlencoded contentType || net.multipart contentType

/-- Whether parsing the form of a request reads its body: an urlencoded body is
read for `POST`, `PUT` and `PATCH` only, a multipart body always. -/
def NetHttp.readsBody (net : NetHttp) (method contentType : GoString) : Bool :=
  net.multipart contentType ||
    net.urlencoded contentType &&
      (method = lit "POST" || method = lit "PUT" || method = lit "PATCH")

namespace Request

/-- The form values: what an earlier parse found, else what a parse finds now. -/
def formValues (net : NetHttp) (r : Request) : GoString → GoString :=
  r.postForm.getD
    (if net.readsBody r.method (r.header .contentType) then
      net.parseForm (r.header .contentType) r.body
    else fun _ => [])

/-- The value that `r.PostFormValue(key)` returns. -/
def postFormValue (net : NetHttp) (r : Request) (key : GoString) : GoString :=
  r.formValues net key

/-- The request after a call of `r.PostFormValue`. -/
def formParsed (net : NetHttp) (r : Request) : Request :=
  { r with
    postForm := some (r.formValues net)
    body :=
      if r.postForm.isNone && net.readsBody r.method (r.header .contentType) then [] else r.body }

/-- Form values do not change once the form has been parsed. -/
@[simp] theorem postFormValue_formParsed (net : NetHttp) (r : Request) :
    (r.formParsed net).postFormValue net = r.postFormValue net := rfl

/-- For a request whose form has not been parsed yet, parsing it empties a form
body and leaves any other body alone. -/
theorem formParsed_body {net : NetHttp} {r : Request} (hFresh : r.postForm = none) :
    (r.formParsed net).body =
      if net.readsBody r.method (r.header .contentType) then [] else r.body := by
  simp [formParsed, hFresh]

@[simp] theorem formParsed_formParsed (net : NetHttp) (r : Request) :
    (r.formParsed net).formParsed net = r.formParsed net := by
  simp [formParsed, formValues]

end Request

/-- `IPFromRequest`. -/
def ipFromRequest (r : Request) : GoString :=
  let ip := r.header .realIP
  if ip = [] then r.remoteAddr else ip

end PadlockCloud
