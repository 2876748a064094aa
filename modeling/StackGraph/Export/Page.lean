/-!
# The fixed parts of the interactive page

The style sheet and the script of the page that the HTML export writes, line by line. The script
reads the data of the graph from the element `graph-data`; it lets the reader zoom and drag the
drawing, search for modules and see the details of one.
-/

namespace StackGraph.Page

/-- The lines of the style sheet. -/
def style : List String := [
    "body \x7b margin: 0; font-family: -apple-system, \"Segoe UI\", Helvetica, Arial, " ++
      "sans-serif; color: #263238; background: #fafafa; \x7d",
    "header \x7b display: flex; align-items: center; gap: 16px; padding: 10px 16px; " ++
      "background: #fff; border-bottom: 1px solid #e0e0e0; \x7d",
    "header h1 \x7b font-size: 16px; margin: 0; \x7d",
    "header .stats span \x7b margin-right: 12px; font-size: 13px; \x7d",
    "header .stats .bad \x7b color: #d32f2f; font-weight: 600; \x7d",
    "header input \x7b margin-left: auto; padding: 4px 8px; \x7d",
    "main \x7b display: flex; height: calc(100vh - 50px); \x7d",
    "#canvas \x7b flex: 1; overflow: hidden; \x7d",
    "#graph \x7b width: 100%; height: 100%; cursor: grab; user-select: none; \x7d",
    "#graph.dragging \x7b cursor: grabbing; \x7d",
    "aside \x7b width: 300px; overflow: auto; padding: 12px 16px; background: #fff; " ++
      "border-left: 1px solid #e0e0e0; font-size: 13px; \x7d",
    "aside h2 \x7b font-size: 14px; \x7d",
    "aside li \x7b word-break: break-all; \x7d",
    ".edge \x7b fill: none; stroke: #607d8b; stroke-width: 1.5; \x7d",
    ".edge.inferred \x7b stroke-dasharray: 6 4; \x7d",
    ".edge.cycle \x7b stroke: #d32f2f; stroke-width: 3; \x7d",
    ".node rect \x7b fill: #e3f2fd; stroke: #1e88e5; stroke-width: 1.5; \x7d",
    ".node.isolated rect \x7b fill: #f5f5f5; stroke: #9e9e9e; \x7d",
    ".node.stub rect \x7b fill: #fff; stroke: #9e9e9e; stroke-dasharray: 4 3; \x7d",
    ".node.cycle rect \x7b stroke: #d32f2f; stroke-width: 2.5; \x7d",
    ".node text \x7b font-size: 13px; text-anchor: middle; pointer-events: none; \x7d",
    ".node \x7b cursor: pointer; \x7d",
    ".node.match rect \x7b fill: #fff59d; stroke: #f9a825; stroke-width: 3; \x7d",
    ".node.dim \x7b opacity: 0.25; \x7d"]

/-- The lines of the script. -/
def script : List String := [
    "(function () \x7b",
    "  var svg = document.getElementById('graph');",
    "  var data = JSON.parse(document.getElementById('graph-data').textContent);",
    "  var view = \x7b x: 0, y: 0, w: data.bounds.width, h: data.bounds.height \x7d;",
    "",
    "  function apply() \x7b",
    "    svg.setAttribute('viewBox', view.x + ' ' + view.y + ' ' + view.w + ' ' + view.h);",
    "  \x7d",
    "",
    "  function fit() \x7b",
    "    view = \x7b x: 0, y: 0, w: data.bounds.width, h: data.bounds.height \x7d;",
    "    apply();",
    "  \x7d",
    "",
    "  svg.addEventListener('wheel', function (e) \x7b",
    "    e.preventDefault();",
    "    var r = svg.getBoundingClientRect();",
    "    var mx = view.x + (e.clientX - r.left) / r.width * view.w;",
    "    var my = view.y + (e.clientY - r.top) / r.height * view.h;",
    "    var k = e.deltaY < 0 ? 0.9 : 1.1;",
    "    view.x = mx - (mx - view.x) * k;",
    "    view.y = my - (my - view.y) * k;",
    "    view.w *= k;",
    "    view.h *= k;",
    "    apply();",
    "  \x7d, \x7b passive: false \x7d);",
    "",
    "  var drag = null;",
    "  svg.addEventListener('mousedown', function (e) \x7b",
    "    drag = \x7b x: e.clientX, y: e.clientY \x7d;",
    "    svg.classList.add('dragging');",
    "  \x7d);",
    "  window.addEventListener('mousemove', function (e) \x7b",
    "    if (!drag) return;",
    "    var r = svg.getBoundingClientRect();",
    "    view.x -= (e.clientX - drag.x) / r.width * view.w;",
    "    view.y -= (e.clientY - drag.y) / r.height * view.h;",
    "    drag = \x7b x: e.clientX, y: e.clientY \x7d;",
    "    apply();",
    "  \x7d);",
    "  window.addEventListener('mouseup', function () \x7b",
    "    drag = null;",
    "    svg.classList.remove('dragging');",
    "  \x7d);",
    "",
    "  document.getElementById('fit').addEventListener('click', fit);",
    "",
    "  var nodes = document.querySelectorAll('g.node');",
    "  document.getElementById('search').addEventListener('input', function (e) \x7b",
    "    var q = e.target.value.trim().toLowerCase();",
    "    nodes.forEach(function (n) \x7b",
    "      var hit = q !== '' && n.getAttribute('data-id').toLowerCase().indexOf(q) !== -1;",
    "      n.classList.toggle('match', hit);",
    "      n.classList.toggle('dim', q !== '' && !hit);",
    "    \x7d);",
    "  \x7d);",
    "",
    "  var details = document.getElementById('details');",
    "  function list(title, items) \x7b",
    "    var h = document.createElement('h2');",
    "    h.textContent = title + ' (' + items.length + ')';",
    "    details.appendChild(h);",
    "    var ul = document.createElement('ul');",
    "    items.forEach(function (item) \x7b",
    "      var li = document.createElement('li');",
    "      li.textContent = item;",
    "      ul.appendChild(li);",
    "    \x7d);",
    "    details.appendChild(ul);",
    "  \x7d",
    "  nodes.forEach(function (n) \x7b",
    "    n.addEventListener('click', function () \x7b",
    "      var id = n.getAttribute('data-id');",
    "      var m = data.modules[id];",
    "      if (!m) return;",
    "      details.textContent = '';",
    "      var h = document.createElement('h2');",
    "      h.textContent = id + (m.stub ? ' (stub)' : '');",
    "      details.appendChild(h);",
    "      var p = document.createElement('p');",
    "      p.textContent = 'source: ' + (m.source || '-') + ', complexity: ' + " ++
      "m.complexity_score;",
    "      details.appendChild(p);",
    "      list('Depends on', m.dependencies);",
    "      list('Used by', m.dependents);",
    "      list('Outputs', m.outputs);",
    "    \x7d);",
    "  \x7d);",
    "",
    "  fit();",
    "\x7d)();"]

end StackGraph.Page
