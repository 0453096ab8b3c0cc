import PageServer.Accounts.Backend
import PageServer.Http.Request
import PageServer.Site.Form

/-!
# Pages

Which page answers a request. The first character after the last slash selects the login and
registration pages, and a posted form is checked or registered on the way.
-/

namespace PageServer
namespace Site

open Accounts (Backend)

def registerPage : String := "/register.html"

def loginPage : String := "/log.html"

def welcomePage : String := "/welcome.html"

def loginErrorPage : String := "/logError.html"

def registerErrorPage : String := "/registerError.html"

/-- The first character after the last slash. -/
def selector? (url : String) : Option Char :=
  if '/' ∈ url.toList then (url.toList.reverse.takeWhile (· != '/')).reverse.head? else none

def loginAnswer (b : Backend) (c : Credentials) : String :=
  if b.verify c.user c.password then welcomePage else loginErrorPage

def registerAnswer (b : Backend) (c : Credentials) : String × Backend :=
  match b.register c.user c.password with
  | (.ok true, b') => (loginPage, b')
  | (_, b') => (registerErrorPage, b')

/-- The page for a request; none where its form cannot be read. -/
def selectPage (r : Http.Request) (b : Backend) : Option String × Backend :=
  match r.method, selector? r.url with
  | .post, some '2' => ((Credentials.ofForm? r.body).map (loginAnswer b), b)
  | .post, some '3' =>
    match Credentials.ofForm? r.body with
    | some c => let a := registerAnswer b c; (some a.1, a.2)
    | none => (none, b)
  | _, some '0' => (some registerPage, b)
  | _, some '1' => (some loginPage, b)
  | _, _ => (some r.url, b)

/-- The path of a page below the document root, joined as text. -/
def realPath (root page : String) : String :=
  root ++ page

end Site
end PageServer
