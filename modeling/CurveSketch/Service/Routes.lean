import CurveSketch.Payload
import CurveSketch.Service.Application
import CurveSketch.Service.Reply
import CurveSketch.Value.Reader

/-!
# CurveSketch.Service.Routes

The service's answers to requests. `Application.handle` is the whole service: which route a path
is, whether the method fits, whether the body is within the limit, and what the route answers. An
error that no route expects either leaves the service or becomes an answer, as the application
says.
-/

namespace CurveSketch

structure Request where
  method : String
  path : String
  contentType : String
  body : Option String

inductive Escape where
  | settings (fault : SettingsFault)
  | tooLarge
  | tooDeep (container : Container)
  deriving DecidableEq

def Escape.message : Escape → String
  | .settings fault => fault.message
  | .tooLarge => RealFault.tooLarge.message
  | .tooDeep container =>
    s!"maximum recursion depth exceeded while decoding a JSON {container.word} " ++
      "from a unicode string"

inductive Outcome where
  | data (v : Value)
  | problem (p : Problem)
  | escape (e : Escape)

inductive Route where
  | home
  | file
  | vocabulary
  | compile
  | evaluate
  | sample
  | defaultView
  | zoom
  deriving DecidableEq, Repr

namespace Route

def base : String := "/api/function_grapher"

def path : Route → String
  | home => "/"
  | file => "/static/"
  | vocabulary => base ++ "/vocabulary"
  | compile => base ++ "/compile"
  | evaluate => base ++ "/evaluate"
  | sample => base ++ "/sample"
  | defaultView => base ++ "/view/default"
  | zoom => base ++ "/view/zoom"

def fixed : List Route :=
  [home, vocabulary, compile, evaluate, sample, defaultView, zoom]

def isPost : Route → Bool
  | compile => true
  | evaluate => true
  | sample => true
  | zoom => true
  | _ => false

def withoutQuery (path : String) : List Char :=
  path.toList.takeWhile fun c => c != '?' && c != '#'

def ofPath? (requested : String) : Option Route :=
  let cs := withoutQuery requested
  match fixed.find? fun route => route.path.toList == cs with
  | some route => some route
  | none =>
    let folder := file.path.toList
    if folder.isPrefixOf cs && folder.length < cs.length then some file else none

end Route

namespace Application

/-! ### Bodies -/

def mediaType (contentType : String) : String :=
  String.ofList (Text.lower
    (Text.trim Text.isBlank (contentType.toList.takeWhile (· != ';'))))

def isDocument (contentType : String) : Bool :=
  let media := mediaType contentType
  media == "application/json" ||
    ("application/".toList.isPrefixOf media.toList && "+json".toList.isSuffixOf media.toList)

def isOversized (a : Application) (r : Request) : Bool :=
  match r.body with
  | some body =>
    isDocument r.contentType && !body.toList.isEmpty && a.bodyLimit < body.utf8ByteSize
  | none => false

/-- The value of the body; an object without fields where it holds nothing to speak of. Only a
body whose parts stand too deep inside each other is not taken for an empty one. -/
def bodyValue (r : Request) : Except Escape Value :=
  match r.body with
  | some body =>
    if isDocument r.contentType then
      match Value.ofDocument body with
      | .ok v => .ok v.orEmptyObject
      | .error .malformed => .ok (.object [])
      | .error (.tooDeep container) => .error (.tooDeep container)
    else .ok (.object [])
  | none => .ok (.object [])

def withBody (r : Request) (route : Value → Outcome) : Outcome :=
  match bodyValue r with
  | .ok body => route body
  | .error e => .escape e

/-! ### Routes -/

def refused (found : List Issue) : Outcome :=
  .problem (.invalidBody (.list (found.map Issue.toValue)))

def modeOf (r : ExpressionRequest) (s : Settings) : LexMode :=
  r.lexMode.getD s.lexMode

def compileRoute (a : Application) (body : Value) : Outcome :=
  match ExpressionRequest.ofValue body with
  | .error found => refused found
  | .ok r =>
    match a.settings with
    | .error fault => .escape (.settings fault)
    | .ok s =>
      match Summary.ofText (modeOf r s) s.maxExpressionLength r.expression with
      | .ok summary => .data summary.toValue
      | .error e => .problem (.ofCompileError e)

def evaluateRoute (a : Application) (body : Value) : Outcome :=
  match EvaluateRequest.ofValue body with
  | .error found => refused found
  | .ok r =>
    match a.settings with
    | .error fault => .escape (.settings fault)
    | .ok s =>
      match Evaluation.ofText (modeOf r.toExpressionRequest s) s.maxExpressionLength
          r.expression r.x with
      | .ok evaluation => .data evaluation.toValue
      | .error (.compile e) => .problem (.ofCompileError e)
      | .error _ => .problem (.internal "StackError")

def canvasMessage (s : Settings) : String :=
  s!"Canvas may be at most {s.maxWidth}x{s.maxHeight} pixels"

def windowOfPairs (x y : Float × Float) : Except RangeFault Window :=
  match Range.ofBounds .x x.1 x.2 with
  | .error fault => .error fault
  | .ok xRange =>
    match Range.ofBounds .y y.1 y.2 with
    | .error fault => .error fault
    | .ok yRange => .ok ⟨xRange, yRange⟩

/-- The curve of an expression over a window. The canvas is checked first, then the expression,
then the window. -/
def sampleRoute (a : Application) (body : Value) : Outcome :=
  match SampleRequest.ofValue body with
  | .error found => refused found
  | .ok r =>
    match a.settings with
    | .error fault => .escape (.settings fault)
    | .ok s =>
      if s.maxWidth < r.width || s.maxHeight < r.height then
        .problem (.invalidRequest (canvasMessage s))
      else
        match Program.compile (modeOf r.toExpressionRequest s) s.maxExpressionLength
            r.expression with
        | .error e => .problem (.ofCompileError e)
        | .ok p =>
          match windowOfPairs r.xRange r.yRange with
          | .error fault => .problem (.invalidWindow fault.message)
          | .ok w =>
            match Curve.ofProgram p r.width r.height w s.sampleWorkers with
            | .ok curve => .data curve.toValue
            | .error .tooLarge => .escape .tooLarge
            | .error fault => .problem (.invalidWindow fault.message)

/-- The factor of a zoom: the one that is given, or that of one step. -/
def factorOf? (r : ZoomRequest) : Option Float :=
  match r.factor, r.direction with
  | some factor, _ => some factor
  | none, some .inward => some Window.zoomInFactor
  | none, some .outward => some Window.zoomOutFactor
  | none, none => none

def zoomRoute (body : Value) : Outcome :=
  match ZoomRequest.ofValue body with
  | .error found => refused found
  | .ok r =>
    match factorOf? r with
    | none => .problem (.invalidRequest "Provide either factor or direction")
    | some factor =>
      match windowOfPairs r.xRange r.yRange with
      | .error fault => .problem (.invalidWindow fault.message)
      | .ok w =>
        match w.zoom factor with
        | .ok zoomed => .data zoomed.toValue
        | .error fault => .problem (.invalidWindow fault.message)

def homeValue (a : Application) : Value :=
  .object [
    ("site", .object a.site),
    ("plugins", .list [.object (Value.setField "api" (.text Route.vocabulary.path) a.manifest)])]

def notFound : Problem :=
  .ofKind .notFound "Resource not found"

def tooLong : Problem :=
  { Problem.ofKind .application "Payload too large" with
    code := "payload_too_large"
    status := 413 }

/-- An error that nobody expects, told without its message. -/
def serverError : Problem :=
  .ofKind .internal "Internal server error"

def answer (a : Application) (route : Route) (r : Request) : Outcome :=
  if route.isPost && a.isOversized r then .problem tooLong
  else
    match route with
    | .home => .data a.homeValue
    | .file => .problem notFound
    | .vocabulary => .data CurveSketch.vocabulary
    | .compile => withBody r a.compileRoute
    | .evaluate => withBody r a.evaluateRoute
    | .sample => withBody r a.sampleRoute
    | .defaultView => .data Window.default.toValue
    | .zoom => withBody r zoomRoute

def reply (a : Application) (requestId : String) : Outcome → Except Escape Reply
  | .data v => .ok (.ok (some requestId) 200 v)
  | .problem p => .ok (.fail (some requestId) none p)
  | .escape e => if a.testing then .error e else .ok (.fail (some requestId) none serverError)

/-- The answer to a request under the given id, or the error that leaves the service. -/
def handle (a : Application) (requestId : String) (r : Request) : Except Escape Reply :=
  match Route.ofPath? r.path with
  | none => a.reply requestId (.problem notFound)
  | some route =>
    if r.method == "OPTIONS" then .ok (.page 200)
    else if route.isPost then
      if r.method == "POST" then a.reply requestId (a.answer route r) else .ok (.page 405)
    else if r.method == "GET" then a.reply requestId (a.answer route r)
    else if r.method == "HEAD" then
      match a.reply requestId (a.answer route r) with
      | .ok found => .ok { found with document := none }
      | .error e => .error e
    else .ok (.page 405)

end Application
end CurveSketch
