set_option autoImplicit false

namespace MockGraph.Server

/-- The page for a server whose operations are posted to `endpoint`. -/
def landingPage (endpoint : String) : String :=
  String.intercalate "\n" [
    "<!DOCTYPE html>",
    "<html>",
    "<head>",
    "    <title>mockql</title>",
    "    <style>",
    r"        * { box-sizing: border-box; }",
    r"        body { font-family: -apple-system, BlinkMacSystemFont, 'Segoe UI', Roboto, " ++
      r"sans-serif; max-width: 900px; margin: 0 auto; padding: 2rem; background: #f8fafc; }",
    r"        h1 { color: #0f172a; border-bottom: 2px solid #6366f1; padding-bottom: 0.5rem; }",
    r"        .info { background: #eef2ff; padding: 1rem 1.5rem; border-radius: 8px; " ++
      r"border-left: 4px solid #6366f1; margin: 1.5rem 0; }",
    r"        .info code { background: #e0e7ff; padding: 2px 6px; border-radius: 4px; }",
    r"        pre { background: #1e293b; color: #e2e8f0; padding: 1rem; border-radius: 6px; " ++
      r"overflow-x: auto; font-size: 0.85rem; }",
    "    </style>",
    "</head>",
    "<body>",
    "    <h1>mockql</h1>",
    "    <p>Every field is served from mock data generated from the schema.</p>",
    "",
    r#"    <div class="info">"#,
    "        <ul>",
    "            <li><code>POST " ++ endpoint ++ "</code> - queries and mutations</li>",
    "            <li><code>GET " ++ endpoint ++ "</code> (WebSocket) - subscriptions over " ++
      "<code>graphql-ws</code> or <code>graphql-transport-ws</code></li>",
    "            <li><code>GET /health</code> - health check</li>",
    "        </ul>",
    "    </div>",
    "",
    "    <h2>Query</h2>",
    "    <pre>curl -s http://localhost:4000" ++ endpoint ++ " \\",
    r#"  -H "Content-Type: application/json" \"#,
    r#"  -d '{"query": "{ allDays { id date mountain conditions } }"}'</pre>"#,
    "",
    "    <h2>Subscription</h2>",
    r"    <pre>subscription {",
    r"  newDay { id date mountain }",
    r"}</pre>",
    "</body>",
    "</html>"]

end MockGraph.Server
